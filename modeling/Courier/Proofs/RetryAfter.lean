import Courier.Proofs.Escapes
import Courier.Proofs.WholeNumber
import Courier.Retry
/-!
Delays that a server asks for.  A value of `Retry-After` counts if it denotes a positive number of
seconds that fits into 63 bits, and no other value counts.  Of several values only the first is looked
at, and only if it is a text of visible characters.
-/
namespace Courier

/-- A visible character of ASCII, a blank or a tab. -/
def IsVisible (c : Char) : Prop :=
  c.toNat = 0x09 ∨ 0x20 ≤ c.toNat ∧ c.toNat ≤ 0x7E

namespace Text.Utf8

theorem encodeChars_of_ascii {cs : List Char} (h : ∀ c ∈ cs, c.toNat < 0x80) :
    encodeChars cs = cs.map fun c => c.toNat.toUInt8 := by
  induction cs with
  | nil => rfl
  | cons c cs ih =>
      obtain ⟨hc, hcs⟩ := List.forall_mem_cons.mp h
      rw [encodeChars, List.flatMap_cons, encodeChar, if_pos hc, List.map_cons, ← ih hcs]
      rfl

end Text.Utf8

namespace HeaderValue

variable {value : HeaderValue} {text : String}

theorem isVisible_ofNat_iff (b : UInt8) :
    (b == 0x09 || (0x20 ≤ b && b ≤ 0x7E)) = true ↔ IsVisible (Char.ofNat b.toNat) := by
  rw [IsVisible, Url.Percent.toNat_ofNat_octet]
  simp only [Bool.or_eq_true, Bool.and_eq_true, beq_iff_eq, decide_eq_true_eq,
    UInt8.le_iff_toNat_le, ← UInt8.toNat_inj]
  rfl

/-- A value is shown as the text that it is, if all characters of that are visible. -/
theorem visible?_eq_some_iff :
    value.visible? = some text ↔
      value.octets = .ofText text ∧ ∀ c ∈ text.toList, IsVisible c := by
  have hascii : ∀ {c : Char}, IsVisible c → c.toNat < 0x80 := by
    rintro c (hc | hc) <;> omega
  unfold visible?
  constructor
  · intro h
    split at h
    case isFalse => cases h
    case isTrue hvisible =>
      cases h
      have hall : ∀ c ∈ value.octets.map fun b => Char.ofNat b.toNat, IsVisible c := by
        rw [List.forall_mem_map]
        exact fun b hb => (isVisible_ofNat_iff b).mp (List.all_eq_true.mp hvisible b hb)
      refine ⟨?_, by rwa [String.toList_ofList]⟩
      rw [Octets.ofText, Text.Utf8.encode, String.toList_ofList,
        Text.Utf8.encodeChars_of_ascii fun c hc => hascii (hall c hc), List.map_map]
      simp [Function.comp_def, Url.Percent.toNat_ofNat_octet]
  · rintro ⟨hoctets, hvisible⟩
    have hlist : value.octets = text.toList.map fun c => c.toNat.toUInt8 := by
      rw [hoctets, Octets.ofText, Text.Utf8.encode,
        Text.Utf8.encodeChars_of_ascii fun c hc => hascii (hvisible c hc)]
    have hback : ∀ c ∈ text.toList, Char.ofNat (c.toNat.toUInt8).toNat = c := by
      intro c hc
      have hsmall := hascii (hvisible c hc)
      rw [Text.Utf8.toNat_toUInt8 (by omega), Char.ofNat_toNat]
    have hsame : (value.octets.map fun b => Char.ofNat b.toNat) = text.toList := by
      rw [hlist, List.map_map]
      exact (List.map_congr_left hback).trans (List.map_id _)
    rw [if_pos, hsame, String.ofList_toList]
    refine List.all_eq_true.mpr fun b hb => (isVisible_ofNat_iff b).mpr ?_
    rw [hlist, List.mem_map] at hb
    obtain ⟨c, hc, rfl⟩ := hb
    rw [hback c hc]
    exact hvisible c hc

end HeaderValue

namespace RetryPolicy

open Decimal (Denotes)

variable {s : String} {d : Span} {headers : Headers}

theorem parseRetryAfter_eq_some_iff :
    parseRetryAfter s = some d ↔
      ∃ n, Denotes s n ∧ 1 ≤ n ∧ n ≤ Nat.pow 2 63 - 1 ∧ d = Span.ofSeconds n := by
  constructor
  · intro h
    unfold parseRetryAfter at h
    split at h
    case h_1 seconds hread =>
      split at h
      case isFalse => cases h
      case isTrue hpos =>
        rcases Decimal.readInt_eq_ok_iff.mp hread with
          ⟨n, hdenotes, hbound, rfl⟩ | ⟨_, n, _, _, _, rfl⟩
        · cases h
          exact ⟨n, hdenotes, by omega, hbound, rfl⟩
        · omega
    case h_2 => cases h
  · rintro ⟨n, hdenotes, hpos, hbound, rfl⟩
    have hread : Decimal.readInt Decimal.maxSigned64 s = .ok (n : Int) :=
      Decimal.readInt_eq_ok_iff.mpr (.inl ⟨n, hdenotes, hbound, rfl⟩)
    have hsign : (0 : Int) < n := by omega
    simp only [parseRetryAfter, hread, if_pos hsign, Int.toNat_natCast]

theorem retryAfter_eq_some_iff :
    retryAfter headers = some d ↔
      ∃ value more text, headers.getAll .retryAfter = value :: more ∧
        value.octets = .ofText text ∧ (∀ c ∈ text.toList, IsVisible c) ∧
        parseRetryAfter text = some d := by
  simp only [retryAfter, Headers.get?, Option.bind_eq_some_iff, List.head?_eq_some_iff,
    HeaderValue.visible?_eq_some_iff]
  constructor
  · rintro ⟨value, ⟨more, hvalues⟩, text, ⟨htext, hvisible⟩, hdelay⟩
    exact ⟨value, more, text, hvalues, htext, hvisible, hdelay⟩
  · rintro ⟨value, more, text, hvalues, htext, hvisible, hdelay⟩
    exact ⟨value, ⟨more, hvalues⟩, text, ⟨htext, hvisible⟩, hdelay⟩

/-- A text is taken for a delay if it denotes a number of seconds from 1 to the greatest number of 63
bits: digits behind a plus sign or none, however many zeros lead.  An answer asks for the delay that its
first value of `Retry-After` is taken for, if that is a text of visible characters; further values do
not count. -/
theorem retryAfter_reads_first_value (s : String) (headers : Headers) (d : Span) :
    (parseRetryAfter s = some d ↔
      ∃ n, Denotes s n ∧ 1 ≤ n ∧ n ≤ Nat.pow 2 63 - 1 ∧ d = Span.ofSeconds n) ∧
    (retryAfter headers = some d ↔
      ∃ value more text, headers.getAll .retryAfter = value :: more ∧
        value.octets = .ofText text ∧ (∀ c ∈ text.toList, IsVisible c) ∧
        parseRetryAfter text = some d) :=
  ⟨parseRetryAfter_eq_some_iff, retryAfter_eq_some_iff⟩

example : parseRetryAfter "+0000000000000000000009223372036854775807" =
    some (Span.ofSeconds 9223372036854775807) := by decide

example : parseRetryAfter "9223372036854775808" = none := by decide

end RetryPolicy
end Courier
