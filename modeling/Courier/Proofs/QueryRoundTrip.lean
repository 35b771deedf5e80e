import Courier.Proofs.Utf8
import Courier.Url.Query
/-!
Pairs come back from their query.  An octet in form encoding is itself, a plus, or an escape, and
none of these has a separator in it; so the query falls apart at the separators that were put between
the pairs, and each half of a pair is read as it was written.
-/
namespace Courier

theorem forall_octet {p : UInt8 → Prop} (h : ∀ n < 256, p (UInt8.ofNat n)) (b : UInt8) : p b := by
  have hb := h b.toNat b.toNat_lt
  rwa [UInt8.ofNat_toNat] at hb

namespace Text

variable {α : Type} {p : α → Bool}

theorem splitList_of_forall {part : List α} (h : ∀ a ∈ part, p a = false) :
    splitList p part = [part] := by
  induction part with
  | nil => rfl
  | cons a part ih =>
      obtain ⟨ha, hpart⟩ := List.forall_mem_cons.mp h
      simp only [splitList, ha, ih hpart, Bool.false_eq_true, if_false]

/-- The first part of a list ends with the first separator. -/
theorem splitList_append_cons {part rest : List α} {separator : α} (h : ∀ a ∈ part, p a = false)
    (hseparator : p separator = true) :
    splitList p (part ++ separator :: rest) = part :: splitList p rest := by
  induction part with
  | nil => simp only [List.nil_append, splitList, hseparator, if_true]
  | cons a part ih =>
      obtain ⟨ha, hpart⟩ := List.forall_mem_cons.mp h
      simp only [List.cons_append, splitList, ha, ih hpart, Bool.false_eq_true, if_false]

end Text

namespace Url.Percent

open Text.Utf8 (encodeChars)

/-- The octet of a hexadecimal digit. -/
def hexOctet (n : Nat) : UInt8 := (upperHex n).toNat.toUInt8

theorem hexDigit?_hexOctet {n : Nat} (h : n < 16) : hexDigit? (hexOctet n) = some n := by
  revert n
  decide

/-- An octet in form encoding is itself, a plus, or an escape. -/
theorem encodeChars_encodeFormOctet (b : UInt8) :
    encodeChars (encodeFormOctet b) =
      if isFormPlain b then [b] else if b = 0x20 then [0x2B]
      else [0x25, hexOctet (b.toNat / 16), hexOctet (b.toNat % 16)] := by
  revert b
  apply forall_octet
  set_option maxRecDepth 4096 in decide

/-- It has neither of the separators of a query. -/
theorem no_separator_encodeFormOctet (b : UInt8) :
    (encodeChars (encodeFormOctet b)).all (fun c => c != 0x26 && c != 0x3D) = true := by
  revert b
  apply forall_octet
  set_option maxRecDepth 4096 in decide

/-- What a plus is read as, and any other octet. -/
def unplus (b : UInt8) : UInt8 := if b = 0x2B then 0x20 else b

theorem unplus_of_isFormPlain {b : UInt8} (h : isFormPlain b = true) : unplus b = b ∧ b ≠ 0x25 := by
  revert h
  revert b
  apply forall_octet
  set_option maxRecDepth 4096 in decide

theorem unplus_hexOctet {n : Nat} (h : n < 16) : unplus (hexOctet n) = hexOctet n := by
  revert n
  decide

theorem decode_cons {b : UInt8} (h : b ≠ 0x25) (rest : Octets) :
    decode (b :: rest) = b :: decode rest := by
  rw [decode]
  rintro _ _ _ rfl
  exact absurd rfl h

theorem decode_escape {x y : Nat} (hx : x < 16) (hy : y < 16) (rest : Octets) :
    decode (0x25 :: hexOctet x :: hexOctet y :: rest) = (16 * x + y).toUInt8 :: decode rest := by
  rw [decode, hexDigit?_hexOctet hx, hexDigit?_hexOctet hy]

/-- An octet is read from its form encoding, whatever follows it. -/
theorem decode_encodeFormOctet (b : UInt8) (rest : Octets) :
    decode ((encodeChars (encodeFormOctet b)).map unplus ++ rest) = b :: decode rest := by
  rw [encodeChars_encodeFormOctet]
  by_cases hplain : isFormPlain b = true
  · obtain ⟨hkept, hsign⟩ := unplus_of_isFormPlain hplain
    rw [if_pos hplain, List.map_singleton, hkept]
    exact decode_cons hsign rest
  · rw [if_neg hplain]
    by_cases hblank : b = 0x20
    · rw [if_pos hblank, hblank]
      exact decode_cons (by decide) rest
    · have hlt := b.toNat_lt
      have hhigh : b.toNat / 16 < 16 := by omega
      have hlow : b.toNat % 16 < 16 := by omega
      have hnumber : (16 * (b.toNat / 16) + b.toNat % 16).toUInt8 = b := by
        rw [Nat.div_add_mod]
        exact UInt8.ofNat_toNat
      rw [if_neg hblank]
      simp only [List.map_cons, List.map_nil, unplus_hexOctet hhigh, unplus_hexOctet hlow]
      refine (decode_escape hhigh hlow rest).trans ?_
      rw [hnumber]

theorem decode_map_unplus (octets : Octets) :
    decode ((encodeChars (octets.flatMap encodeFormOctet)).map unplus) = octets := by
  induction octets with
  | nil => simp [encodeChars, decode]
  | cons b octets ih =>
      have hcons : encodeChars ((b :: octets).flatMap encodeFormOctet) =
          encodeChars (encodeFormOctet b) ++ encodeChars (octets.flatMap encodeFormOctet) := by
        simp only [encodeChars, List.flatMap_cons, List.flatMap_append]
      rw [hcons, List.map_append, decode_encodeFormOctet, ih]

/-- A text comes back from form encoding. -/
theorem decodeForm_encodeForm (s : String) : decodeForm (encodeChars (encodeForm s)) = s := by
  have hoctets := decode_map_unplus (Octets.ofText s)
  unfold unplus at hoctets
  rw [decodeForm, encodeForm, hoctets, Text.Utf8.decodeLenient_encode]

theorem no_separator_encodeForm (s : String) :
    ∀ c ∈ encodeChars (encodeForm s), c ≠ 0x26 ∧ c ≠ 0x3D := by
  intro c hc
  unfold encodeForm encodeChars at hc
  rw [List.flatMap_assoc] at hc
  obtain ⟨b, _, hb⟩ := List.mem_flatMap.mp hc
  simpa using List.all_eq_true.mp (no_separator_encodeFormOctet b) c hb

end Url.Percent

namespace Url.Query

open Percent (encodeForm no_separator_encodeForm decodeForm_encodeForm)

/-- The octets of one pair. -/
def pairOctets (pair : String × String) : Octets := Text.Utf8.encodeChars (encodePair pair)

theorem pairOctets_eq (pair : String × String) :
    pairOctets pair = Text.Utf8.encodeChars (encodeForm pair.1) ++
      0x3D :: Text.Utf8.encodeChars (encodeForm pair.2) := by
  simp only [pairOctets, encodePair, Text.Utf8.encodeChars, List.flatMap_append, List.flatMap_cons]
  rfl

/-- A pair is read as it was written: its name ends with the first `=`. -/
theorem decodePair_pairOctets (pair : String × String) : decodePair (pairOctets pair) = pair := by
  have hname : ∀ c ∈ Text.Utf8.encodeChars (encodeForm pair.1), (c != 0x3D) = true := by
    intro c hc
    simpa using (no_separator_encodeForm pair.1 c hc).2
  rw [decodePair, pairOctets_eq, List.takeWhile_append_of_pos hname,
    List.dropWhile_append_of_pos hname]
  simp [decodeForm_encodeForm]

theorem no_separator_pairOctets (pair : String × String) :
    ∀ c ∈ pairOctets pair, (c == 0x26) = false := by
  intro c hc
  rw [pairOctets_eq, List.mem_append, List.mem_cons] at hc
  rcases hc with hname | rfl | hvalue
  · simpa using (no_separator_encodeForm pair.1 c hname).1
  · rfl
  · simpa using (no_separator_encodeForm pair.2 c hvalue).1

/-- A query falls apart into its pairs. -/
theorem splitList_encodeChars (pair : String × String) (pairs : Pairs) :
    Text.splitList (· == 0x26) (Text.Utf8.encodeChars (encodeChars (pair :: pairs))) =
      (pair :: pairs).map pairOctets := by
  induction pairs generalizing pair with
  | nil => exact Text.splitList_of_forall (no_separator_pairOctets pair)
  | cons next pairs ih =>
      have hcons : Text.Utf8.encodeChars (encodeChars (pair :: next :: pairs)) =
          pairOctets pair ++ 0x26 :: Text.Utf8.encodeChars (encodeChars (next :: pairs)) := by
        simp only [encodeChars, List.map_cons, joinAmp, Text.Utf8.encodeChars, List.flatMap_append,
          List.flatMap_cons]
        rfl
      rw [hcons, Text.splitList_append_cons (no_separator_pairOctets pair) rfl, ih next]
      rfl

/-- Pairs are read as they were written. -/
theorem decode_encode (pairs : Pairs) : decode (encode pairs) = pairs := by
  have hoctets : Octets.ofText (encode pairs) = Text.Utf8.encodeChars (encodeChars pairs) := by
    simp [Octets.ofText, encode, Text.Utf8.encode]
  rw [decode, hoctets, decodeOctets]
  cases pairs with
  | nil => rfl
  | cons pair pairs =>
      rw [splitList_encodeChars, List.filter_eq_self.mpr, List.map_map]
      · refine List.map_id'' ?_ _
        exact decodePair_pairOctets
      · intro part hpart
        obtain ⟨pair, _, rfl⟩ := List.mem_map.mp hpart
        simp [pairOctets_eq]

end Url.Query
end Courier
