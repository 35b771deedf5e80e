import Courier.Settings
/-!
Placeholders in header values.  A placeholder is `$` and, between braces, `ENV:` and the name of a
variable; the value of the variable takes its place.  One pass goes from left to right, and values
are not looked at again.
-/
namespace Courier.Config

/-- What opens a placeholder. -/
def opening : List Char := "$\x7bENV:".toList

def closing : Char := '\x7d'

/-- The name in the placeholder at the front of a text, and what follows it. -/
def placeholder? (cs : List Char) : Option (List Char × List Char) :=
  if opening.isPrefixOf cs then
    let rest := cs.drop opening.length
    let name := rest.takeWhile (· != closing)
    match rest.drop name.length with
    | [] => none
    | _ :: after => if name.isEmpty then none else some (name, after)
  else none

theorem length_lt_of_placeholder? {cs name after : List Char}
    (h : placeholder? cs = some (name, after)) : after.length < cs.length := by
  unfold placeholder? at h
  split at h
  · dsimp only at h
    split at h
    · cases h
    · rename_i c tail heq
      split at h
      · cases h
      · simp only [Option.some.injEq, Prod.mk.injEq] at h
        obtain ⟨-, rfl⟩ := h
        have := congrArg List.length heq
        simp only [List.length_drop, List.length_cons] at this
        omega
  · cases h

def expandChars (lookup : String → Option String) (cs : List Char) :
    Except SetupError (List Char) :=
  match h : placeholder? cs with
  | some (name, after) =>
      have := length_lt_of_placeholder? h
      match lookup (String.ofList name) with
      | none => .error (.variableNotFound (String.ofList name))
      | some value =>
          match expandChars lookup after with
          | .error e => .error e
          | .ok rest => .ok (value.toList ++ rest)
  | none =>
      match cs with
      | [] => .ok []
      | c :: rest =>
          match expandChars lookup rest with
          | .error e => .error e
          | .ok rest => .ok (c :: rest)
termination_by cs.length

/-- Put the values of variables in the place of all placeholders. -/
def expand (lookup : String → Option String) (text : String) : Except SetupError String :=
  match expandChars lookup text.toList with
  | .error e => .error e
  | .ok cs => .ok (String.ofList cs)

end Courier.Config
