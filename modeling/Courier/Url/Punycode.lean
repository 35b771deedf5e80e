/-!
Punycode: a label with characters beyond ASCII as ASCII text.  The basic characters come first; the
others follow as variable-length numbers, each saying how far to go on through all characters and
all places before the next one is put in.
-/
namespace Courier.Url.Punycode

def base : Nat := 36

def threshold (k bias : Nat) : Nat :=
  if k ≤ bias then 1 else if bias + 26 ≤ k then 26 else k - bias

def reduce (delta k : Nat) : Nat → Nat × Nat
  | 0 => (delta, k)
  | fuel + 1 => if 455 < delta then reduce (delta / 35) (k + base) fuel else (delta, k)

/-- The bias after a number, from its value and the count of characters so far. -/
def adapt (delta count : Nat) (first : Bool) : Nat :=
  let delta := if first then delta / 700 else delta / 2
  let (delta, k) := reduce (delta + delta / count) 0 64
  k + 36 * delta / (delta + 38)

def digit (d : Nat) : Char :=
  if d < 26 then Char.ofNat (97 + d) else Char.ofNat (22 + d)

/-- A number with the thresholds of its bias. -/
def encodeNumber (bias q k : Nat) : Nat → List Char
  | 0 => []
  | fuel + 1 =>
      let t := threshold k bias
      if q < t then [digit q]
      else digit (t + (q - t) % (base - t)) :: encodeNumber bias ((q - t) / (base - t)) (k + base) fuel

/-- The state while the characters are passed for one code point. -/
structure Encoder where
  delta : Nat
  bias : Nat
  handled : Nat
  out : List Char

/-- Pass over the label once, writing a number for each place of `n`. -/
def encodePass (n basic : Nat) (state : Encoder) : List Nat → Encoder
  | [] => state
  | c :: rest =>
      if c < n then encodePass n basic { state with delta := state.delta + 1 } rest
      else if c = n then
        let number := encodeNumber state.bias state.delta base 64
        encodePass n basic
          { delta := 0
            bias := adapt state.delta (state.handled + 1) (state.handled == basic)
            handled := state.handled + 1
            out := state.out ++ number } rest
      else encodePass n basic state rest

/-- The code points from 128 up, in order, without repeats. -/
def extended (label : List Nat) : List Nat :=
  (label.filter (128 ≤ ·)).mergeSort.eraseDups

/-- One pass for each code point that is not basic. -/
def encodeFrom (label : List Nat) (basic n : Nat) (state : Encoder) : List Nat → List Char
  | [] => state.out
  | m :: rest =>
      let state := { state with delta := state.delta + (m - n) * (state.handled + 1) }
      let state := encodePass m basic state label
      encodeFrom label basic (m + 1) { state with delta := state.delta + 1 } rest

/-- A label as ASCII text, without the mark in front. -/
def encode (label : List Char) : List Char :=
  let codes := label.map Char.toNat
  let basics := label.filter fun c => c.toNat < 128
  let start : Encoder :=
    { delta := 0
      bias := 72
      handled := basics.length
      out := if basics.isEmpty then [] else basics ++ ['-'] }
  encodeFrom codes basics.length 128 start (extended codes)

def digitValue? (c : Char) : Option Nat :=
  let n := c.toNat
  if 48 ≤ n ∧ n ≤ 57 then some (n - 22)
  else if 65 ≤ n ∧ n ≤ 90 then some (n - 65)
  else if 97 ≤ n ∧ n ≤ 122 then some (n - 97)
  else none

/-- Read a number; answers it with what follows. -/
def decodeNumber (bias i weight k : Nat) : List Char → Option (Nat × List Char)
  | [] => none
  | c :: rest => do
      let d ← digitValue? c
      let i := i + d * weight
      let t := threshold k bias
      if d < t then some (i, rest)
      else decodeNumber bias i (weight * (base - t)) (k + base) rest

/-- Put in characters one number after the other. -/
def decodeFrom (n i bias : Nat) (out : List Nat) (input : List Char) : Nat → Option (List Nat)
  | 0 => none
  | fuel + 1 =>
      match input with
      | [] => some out
      | _ => do
          let (j, rest) ← decodeNumber bias i 1 base input
          let count := out.length + 1
          let bias := adapt (j - i) count (i == 0)
          let n := n + j / count
          if 0x10FFFF < n then none
          else decodeFrom n (j % count + 1) bias (out.insertIdx (j % count) n) rest fuel

/-- The label of an ASCII text without the mark in front. -/
def decode? (text : List Char) : Option (List Char) :=
  let tail := (text.reverse.takeWhile (· != '-')).reverse
  let head := if text.contains '-' then text.take (text.length - tail.length - 1) else []
  if head.any fun c => 128 ≤ c.toNat then none
  else
    match decodeFrom 128 0 72 (head.map Char.toNat) tail (tail.length + 1) with
    | some codes =>
        if codes.all fun n => n.isValidChar then some (codes.map Char.ofNat) else none
    | none => none

end Courier.Url.Punycode
