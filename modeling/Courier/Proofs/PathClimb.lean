import Courier.Proofs.UrlText
/-!
Request paths with `..` in them.  A request path is taken in as it is read by itself, behind what it
leaves of the base path: each `..` that finds no segment of the request path in front of it takes one
of the base path away.  So the URL is below the base only if nothing is taken away, or if the request
path names again what it took.
-/
namespace Courier

namespace Url

variable {own before parts : List String} {raw : List Char} {last : Bool}

/-- Is the raw segment one that takes another away? -/
def isDotDot (raw : List Char) : Bool :=
  isSegmentDotDot (String.ofList (Percent.encode Percent.inPath raw))

/-- How many segments of the base does the raw one take away, behind the `own` ones? -/
def stepUp (own : List String) (raw : List Char) : Nat :=
  if isDotDot raw && own.isEmpty then 1 else 0

/-- How many segments of the base are taken away by all of them? -/
def climb (own : List String) : List (List Char) → Nat
  | [] => 0
  | raw :: rest => stepUp own raw + climb (pushSegment own raw rest.isEmpty) rest

/-- The raw segments of a request path. -/
def rawSegments (path : String) : List (List Char) :=
  Text.splitList (isSlash true) (pathChars path)

/-- How many segments of the base does a request path take away? -/
def climbs (path : String) : Nat :=
  climb [] (rawSegments path)

/-- Is the path of the URL that of the base, without the slashes at its end, and a slash and more? -/
def LiesBelow (url base : Url) : Prop :=
  (dropTrailingSlashes base.pathText ++ "/").toList <+: url.pathText.toList

instance (url base : Url) : Decidable (LiesBelow url base) :=
  inferInstanceAs (Decidable (_ <+: _))

/-! ### Own segments and those of the base -/

/-- A raw segment does to its own segments what it does without the base. -/
theorem pushSegment_append (own before : List String) (raw : List Char) (last : Bool) :
    pushSegment (own ++ before) raw last =
      pushSegment own raw last ++ before.drop (stepUp own raw) := by
  by_cases hdotDot : isDotDot raw = true
  · rw [isDotDot] at hdotDot
    cases own with
    | nil => cases last <;> simp [pushSegment, stepUp, isDotDot, hdotDot]
    | cons segment own => cases last <;> simp [pushSegment, stepUp, isDotDot, hdotDot]
  · rw [stepUp, if_neg (by simp [hdotDot]), List.drop_zero]
    rw [isDotDot, Bool.not_eq_true] at hdotDot
    simp only [pushSegment, hdotDot, Bool.false_eq_true, if_false]
    split_ifs
    · rfl
    · rfl
    · rfl

theorem pushSegments_step (before : List String) (raw : List Char) (rest : List (List Char)) :
    pushSegments before (raw :: rest) =
      pushSegments (pushSegment before raw rest.isEmpty) rest := by
  cases rest with
  | nil => rw [pushSegments, pushSegments, List.isEmpty_nil]
  | cons next rest => exact pushSegments_cons before raw (List.cons_ne_nil next rest)

/-- So do all of them, behind what they leave of the base. -/
theorem pushSegments_append (own before : List String) (raws : List (List Char)) :
    pushSegments (own ++ before) raws = pushSegments own raws ++ before.drop (climb own raws) := by
  induction raws generalizing own before with
  | nil => rfl
  | cons raw rest ih =>
      rw [pushSegments_step, pushSegment_append, ih, pushSegments_step own, climb, List.drop_drop]

/-- No more segments are taken away than there are `..` to do it. -/
theorem climb_le_countP (own : List String) (raws : List (List Char)) :
    climb own raws ≤ raws.countP isDotDot := by
  induction raws generalizing own with
  | nil => exact Nat.le_refl 0
  | cons raw rest ih =>
      have hstep : stepUp own raw ≤ if isDotDot raw = true then 1 else 0 := by
        by_cases hdotDot : isDotDot raw = true
        · rw [if_pos hdotDot, stepUp]
          split_ifs
          · exact Nat.le_refl 1
          · exact Nat.zero_le 1
        · simp [stepUp, hdotDot]
      have hrest := ih (pushSegment own raw rest.isEmpty)
      rw [climb, List.countP_cons]
      omega

/-! ### Paths and their texts -/

theorem splitList_slashedChars_self (hne : parts ≠ []) (hparts : ∀ s ∈ parts, IsSettled s) :
    Text.splitList (isSlash true) (slashedChars parts) = [] :: parts.map String.toList := by
  induction parts using List.reverseRecOn with
  | nil => exact absurd rfl hne
  | append_singleton front segment _ =>
      have hfront : ∀ s ∈ front, IsSettled s := fun s hs => hparts s (List.mem_append_left _ hs)
      have hsegment := hparts segment (by simp)
      have hsplit := splitList_slashedChars hfront isSettled_empty segment.toList
      rw [Text.splitList_of_forall hsegment.no_slash] at hsplit
      rw [slashedChars_concat, List.map_append]
      exact hsplit

/-- A path begins with another one and a slash if it has the segments of that one and more. -/
theorem isPrefix_slashedChars_iff {front : List String} (hfront : ∀ s ∈ front, IsSettled s)
    (hne : parts ≠ []) (hparts : ∀ s ∈ parts, IsSettled s) :
    slashedChars front ++ ['/'] <+: slashedChars parts ↔
      ∃ rest, rest ≠ [] ∧ parts = front ++ rest := by
  constructor
  · rintro ⟨more, hmore⟩
    have hsplit := splitList_slashedChars hfront isSettled_empty more
    rw [List.append_assoc, List.singleton_append] at hmore
    change Text.splitList (isSlash true) (slashedChars front ++ '/' :: more) = _ at hsplit
    rw [hmore, splitList_slashedChars_self hne hparts, List.map_cons, List.cons_append,
      List.cons.injEq] at hsplit
    obtain ⟨same, rest, hparts, hsame, hrest⟩ := List.map_eq_append_iff.mp hsplit.2
    have hinjective : Function.Injective String.toList := fun _ _ h => String.toList_injective h
    rw [List.map_injective_iff.mpr hinjective hsame] at hparts
    refine ⟨rest, ?_, hparts⟩
    intro hnone
    rw [hnone] at hrest
    exact Text.splitList_ne_nil _ _ hrest.symm
  · rintro ⟨rest, hrest, rfl⟩
    obtain ⟨segment, rest, rfl⟩ := List.exists_cons_of_ne_nil hrest
    refine ⟨segment.toList ++ slashedChars rest, ?_⟩
    simp [slashedChars]

theorem liesBelow_iff {url base : Url} {front : List String} (hbase : base.path = .segments front)
    (hfront : ∀ s ∈ front, IsSettled s) (hurl : url.path = .segments parts) (hne : parts ≠ [])
    (hparts : ∀ s ∈ parts, IsSettled s) :
    url.LiesBelow base ↔ ∃ rest, rest ≠ [] ∧ parts = trunk front ++ rest := by
  have htrunk : ∀ s ∈ trunk front, IsSettled s := fun s hs => hfront s (mem_of_mem_trunk hs)
  unfold LiesBelow
  rw [pathText, pathText, hbase, hurl, Path.toText, Path.toText, String.toList_append,
    dropTrailingSlashes_slashed hfront, toList_slashed, toList_slashed]
  exact isPrefix_slashedChars_iff htrunk hne hparts

/-! ### The path below a base -/

/-- The segments of a request path stand behind what it leaves of the base path. -/
theorem path_below_eq {base : Url} (h : base.IsWritten) (hpath : base.path = .segments parts)
    {path : String} (hrelative : dropLeadingSlashes path ≠ "") (pairs : Pairs) :
    (base.below path pairs).path =
      .segments ((trunk parts).rdrop (climbs path) ++ readSegments true (pathChars path)) := by
  obtain ⟨parts', hpath', _, hparts⟩ := h.path
  obtain rfl := Path.segments.inj (hpath.symm.trans hpath')
  obtain ⟨hfile, hspecial⟩ := not_file_of_web h.web
  have happend := pushSegments_append [] (trunk parts).reverse (rawSegments path)
  rw [List.nil_append] at happend
  rw [below_eq]
  dsimp only
  rw [pathBelow_eq hpath hparts hfile hspecial hrelative, ← rawSegments, happend,
    List.reverse_append, ← List.rdrop_eq_reverse_drop_reverse]
  rfl

/-- Below a URL of the web the path of the base stays if the request path has nothing but slashes.
Else the segments of the request path, read by themselves, stand behind those of the base less the ones
it takes away.  So the path begins with that of the base and a slash exactly if the request path begins
with the segments it took; if it has no `..` in it, this is so. -/
theorem below_climbs {text : String} {base : Url} (hread : Url.parse text = .ok base)
    (hweb : base.scheme = "http" ∨ base.scheme = "https") (path : String) (pairs : Pairs) :
    ∃ parts, base.path = .segments parts ∧
      (dropLeadingSlashes path = "" → (base.below path pairs).path = base.path) ∧
      (dropLeadingSlashes path ≠ "" →
        (base.below path pairs).path =
            .segments ((trunk parts).rdrop (climbs path) ++ readSegments true (pathChars path)) ∧
          ((base.below path pairs).LiesBelow base ↔ ∃ rest, rest ≠ [] ∧
            readSegments true (pathChars path) = (trunk parts).rtake (climbs path) ++ rest) ∧
          ((∀ raw ∈ rawSegments path, isDotDot raw = false) →
            (base.below path pairs).LiesBelow base)) := by
  have hwritten := isWritten_of_parse hread hweb
  obtain ⟨parts, hpath, hne, hparts⟩ := hwritten.path
  refine ⟨parts, hpath, ?_, ?_⟩
  · intro hrelative
    rw [below_eq]
    dsimp only
    rw [pathBelow, if_pos hrelative]
  · intro hrelative
    have hbelow := path_below_eq hwritten hpath hrelative pairs
    obtain ⟨parts', hpath', hne', hparts'⟩ := (hwritten.below path pairs).path
    obtain rfl := Path.segments.inj (hbelow.symm.trans hpath')
    have hlies : (base.below path pairs).LiesBelow base ↔ ∃ rest, rest ≠ [] ∧
        readSegments true (pathChars path) = (trunk parts).rtake (climbs path) ++ rest := by
      have hcut : trunk parts =
          (trunk parts).rdrop (climbs path) ++ (trunk parts).rtake (climbs path) :=
        (List.take_append_drop _ _).symm
      rw [liesBelow_iff hpath hparts hbelow hne' hparts']
      nth_rewrite 2 [hcut]
      simp only [List.append_assoc, List.append_cancel_left_eq]
    refine ⟨hbelow, hlies, ?_⟩
    intro hplain
    have hnone : (rawSegments path).countP isDotDot = 0 := by simpa using hplain
    have hzero : climbs path = 0 := Nat.le_zero.mp (hnone ▸ climb_le_countP [] (rawSegments path))
    rw [hlies, hzero, List.rtake_zero]
    exact ⟨_, readSegments_ne_nil (pathChars path), (List.nil_append _).symm⟩

end Url

namespace PathClimbWitness

open Url

def users : Url :=
  { scheme := "https"
    authority := some { host := .domain "h" }
    path := .segments ["v1", "users", ""] }

/-- An own segment, one that takes it away, one that takes `users` away, and `users` with one more. -/
def path : String := "/a/../%2e%2E/users\\7?x"

/-- What is taken away is named again, so the path is below the base. -/
theorem users_named_again :
    Url.parse "https://h/v1/users/" = .ok users ∧ climbs path = 1 ∧
      (users.below path []).path = .segments ["v1", "users", "7%3Fx"] ∧
      (users.below path []).LiesBelow users := by
  have hread : Url.parse "https://h/v1/users/" = .ok users := by decide +kernel
  have hone : climbs path = 1 := by decide +kernel
  have hown : readSegments true (pathChars path) = ["users", "7%3Fx"] := by decide +kernel
  have htrunk : trunk ["v1", "users", ""] = ["v1", "users"] := by decide +kernel
  obtain ⟨parts, hparts, -, hjoined⟩ := below_climbs hread (.inr rfl) path []
  obtain rfl := Path.segments.inj hparts
  obtain ⟨hpath, hlies, -⟩ := hjoined (by decide +kernel)
  refine ⟨hread, hone, ?_, ?_⟩
  · rw [hpath, hone, hown, htrunk]
    rfl
  · rw [hlies, hone, hown, htrunk]
    exact ⟨["7%3Fx"], List.cons_ne_nil _ _, rfl⟩

def base : Url :=
  { scheme := "https"
    authority := some { host := .domain "h" }
    path := .segments ["v1"] }

/-- With `..` in it, a request path leads out of the base. -/
theorem admin_not_below_base :
    Url.parse "https://h/v1" = .ok base ∧
      (base.below "/../admin" []).toText = "https://h/admin" ∧
      ¬ (base.below "/../admin" []).LiesBelow base := by
  decide +kernel

end PathClimbWitness
end Courier
