import Courier.Text.Utf8
import Mathlib.Data.List.Basic
/-!
Texts come back from their octets.  The first octet of a character says how many follow it, and the
numbers in them make up the character again; so both readers go through the octets of a text one
character at a time and read the text.
-/
namespace Courier.Text.Utf8

/-- The numbers of characters: those below and those above the surrogates. -/
theorem toNat_bounds (c : Char) :
    c.toNat < 0xD800 ∨ (0xDFFF < c.toNat ∧ c.toNat < 0x110000) := by
  have hvalid := c.valid
  simp only [UInt32.isValidChar, Nat.isValidChar] at hvalid
  exact hvalid

section

variable {a b : Nat}

theorem toNat_toUInt8 (h : a < 0x100) : a.toUInt8.toNat = a := by
  simp only [Nat.toUInt8, UInt8.toNat_ofNat']
  omega

theorem toUInt8_le_iff (h : a < 0x100) (k : UInt8) : a.toUInt8 ≤ k ↔ a ≤ k.toNat := by
  rw [UInt8.le_iff_toNat_le, toNat_toUInt8 h]

theorem le_toUInt8_iff (h : a < 0x100) (k : UInt8) : k ≤ a.toUInt8 ↔ k.toNat ≤ a := by
  rw [UInt8.le_iff_toNat_le, toNat_toUInt8 h]

theorem toUInt8_lt_iff (h : a < 0x100) (k : UInt8) : a.toUInt8 < k ↔ a < k.toNat := by
  rw [UInt8.lt_iff_toNat_lt, toNat_toUInt8 h]

theorem toUInt8_eq_iff (h : a < 0x100) (k : UInt8) : a.toUInt8 = k ↔ a = k.toNat := by
  rw [← UInt8.toNat_inj, toNat_toUInt8 h]

theorem width_toUInt8 (h : a < 0x100) :
    width a.toUInt8 =
      if a < 0x80 then 1 else if a < 0xC2 then 0 else if a < 0xE0 then 2
      else if a < 0xF0 then 3 else if a < 0xF5 then 4 else 0 := by
  simp only [width, toUInt8_lt_iff h]
  rfl

theorem isContinuation_toUInt8 (hlow : 0x80 ≤ b) (hhigh : b ≤ 0xBF) :
    isContinuation b.toUInt8 = true := by
  have h : b < 0x100 := by omega
  simp only [isContinuation, Bool.and_eq_true, decide_eq_true_eq, le_toUInt8_iff h, toUInt8_le_iff h]
  exact ⟨hlow, hhigh⟩

theorem secondBounds_toUInt8 (h : a < 0x100) :
    secondBounds a.toUInt8 =
      if a = 0xE0 then (0xA0, 0xBF) else if a = 0xED then (0x80, 0x9F)
      else if a = 0xF0 then (0x90, 0xBF) else if a = 0xF4 then (0x80, 0x8F) else (0x80, 0xBF) := by
  simp only [secondBounds, toUInt8_eq_iff h]
  rfl

/-- A second octet within the bounds that its first octet sets. -/
theorem within_secondBounds (ha : a < 0x100) (hlow : 0x80 ≤ b) (hhigh : b ≤ 0xBF)
    (hE0 : a = 0xE0 → 0xA0 ≤ b) (hED : a = 0xED → b ≤ 0x9F) (hF0 : a = 0xF0 → 0x90 ≤ b)
    (hF4 : a = 0xF4 → b ≤ 0x8F) :
    ((secondBounds a.toUInt8).1 ≤ b.toUInt8 && b.toUInt8 ≤ (secondBounds a.toUInt8).2) = true := by
  have hb : b < 0x100 := by omega
  rw [Bool.and_eq_true, decide_eq_true_eq, decide_eq_true_eq, le_toUInt8_iff hb, toUInt8_le_iff hb,
    secondBounds_toUInt8 ha]
  split_ifs with h h h h
  · exact ⟨hE0 h, hhigh⟩
  · exact ⟨hlow, hED h⟩
  · exact ⟨hF0 h, hhigh⟩
  · exact ⟨hlow, hF4 h⟩
  · exact ⟨hlow, hhigh⟩

end

variable {n : Nat}

theorem lead_one (h : n < 0x80) (rest : Octets) :
    lead n.toUInt8 rest = .char (Char.ofNat n) 0 := by
  have hn : n < 0x100 := by omega
  unfold lead
  simp only [width_toUInt8 hn, if_pos h, toNat_toUInt8 hn]

theorem lead_two (hlow : 0x80 ≤ n) (hhigh : n < 0x800) (rest : Octets) :
    lead (0xC0 + n / 0x40).toUInt8 ((0x80 + n % 0x40).toUInt8 :: rest) =
      .char (Char.ofNat n) 1 := by
  have ha : 0xC0 + n / 0x40 < 0x100 := by omega
  have hb : 0x80 + n % 0x40 < 0x100 := by omega
  have hwidth : width (0xC0 + n / 0x40).toUInt8 = 2 := by
    rw [width_toUInt8 ha]
    split_ifs <;> omega
  have hsecond := isContinuation_toUInt8 (b := 0x80 + n % 0x40) (by omega) (by omega)
  have hnumber : (0xC0 + n / 0x40 - 0xC0) * 0x40 + (0x80 + n % 0x40) % 0x40 = n := by omega
  simp only [lead, hwidth, hsecond, if_true, payload, toNat_toUInt8 ha, toNat_toUInt8 hb, hnumber]

theorem lead_three (hlow : 0x800 ≤ n) (hhigh : n < 0x10000) (hplain : n < 0xD800 ∨ 0xDFFF < n)
    (rest : Octets) :
    lead (0xE0 + n / 0x1000).toUInt8
        ((0x80 + n / 0x40 % 0x40).toUInt8 :: (0x80 + n % 0x40).toUInt8 :: rest) =
      .char (Char.ofNat n) 2 := by
  have ha : 0xE0 + n / 0x1000 < 0x100 := by omega
  have hb : 0x80 + n / 0x40 % 0x40 < 0x100 := by omega
  have hc : 0x80 + n % 0x40 < 0x100 := by omega
  have hwidth : width (0xE0 + n / 0x1000).toUInt8 = 3 := by
    rw [width_toUInt8 ha]
    split_ifs <;> omega
  have hsecond := within_secondBounds (b := 0x80 + n / 0x40 % 0x40) ha (by omega) (by omega)
    (by omega) (by omega) (by omega) (by omega)
  have hthird := isContinuation_toUInt8 (b := 0x80 + n % 0x40) (by omega) (by omega)
  have hnumber : (0xE0 + n / 0x1000 - 0xE0) * 0x1000 + (0x80 + n / 0x40 % 0x40) % 0x40 * 0x40 +
      (0x80 + n % 0x40) % 0x40 = n := by omega
  simp only [lead, hwidth, hsecond, hthird, if_true, payload, toNat_toUInt8 ha, toNat_toUInt8 hb,
    toNat_toUInt8 hc, hnumber]

theorem lead_four (hlow : 0x10000 ≤ n) (hhigh : n < 0x110000) (rest : Octets) :
    lead (0xF0 + n / 0x40000).toUInt8
        ((0x80 + n / 0x1000 % 0x40).toUInt8 :: (0x80 + n / 0x40 % 0x40).toUInt8 ::
          (0x80 + n % 0x40).toUInt8 :: rest) =
      .char (Char.ofNat n) 3 := by
  have ha : 0xF0 + n / 0x40000 < 0x100 := by omega
  have hb : 0x80 + n / 0x1000 % 0x40 < 0x100 := by omega
  have hc : 0x80 + n / 0x40 % 0x40 < 0x100 := by omega
  have hd : 0x80 + n % 0x40 < 0x100 := by omega
  have hwidth : width (0xF0 + n / 0x40000).toUInt8 = 4 := by
    rw [width_toUInt8 ha]
    split_ifs <;> omega
  have hsecond := within_secondBounds (b := 0x80 + n / 0x1000 % 0x40) ha (by omega) (by omega)
    (by omega) (by omega) (by omega) (by omega)
  have hthird := isContinuation_toUInt8 (b := 0x80 + n / 0x40 % 0x40) (by omega) (by omega)
  have hfourth := isContinuation_toUInt8 (b := 0x80 + n % 0x40) (by omega) (by omega)
  have hnumber : (0xF0 + n / 0x40000 - 0xF0) * 0x40000 +
      (0x80 + n / 0x1000 % 0x40) % 0x40 * 0x1000 + (0x80 + n / 0x40 % 0x40) % 0x40 * 0x40 +
      (0x80 + n % 0x40) % 0x40 = n := by omega
  simp only [lead, hwidth, hsecond, hthird, hfourth, if_true, payload, toNat_toUInt8 ha,
    toNat_toUInt8 hb, toNat_toUInt8 hc, toNat_toUInt8 hd, hnumber]

/-- At the front of the octets of a character stands that character. -/
theorem exists_lead_encodeChar (c : Char) (rest : Octets) :
    ∃ first tail, encodeChar c = first :: tail ∧
      lead first (tail ++ rest) = .char c tail.length := by
  have hplain := toNat_bounds c
  have hchar : Char.ofNat c.toNat = c := Char.ofNat_toNat c
  unfold encodeChar
  by_cases h₁ : c.toNat < 0x80
  · exact ⟨_, _, by rw [if_pos h₁], hchar ▸ lead_one h₁ rest⟩
  · by_cases h₂ : c.toNat < 0x800
    · exact ⟨_, _, by rw [if_neg h₁, if_pos h₂], hchar ▸ lead_two (by omega) h₂ rest⟩
    · by_cases h₃ : c.toNat < 0x10000
      · exact ⟨_, _, by rw [if_neg h₁, if_neg h₂, if_pos h₃],
          hchar ▸ lead_three (by omega) h₃ (by omega) rest⟩
      · exact ⟨_, _, by rw [if_neg h₁, if_neg h₂, if_neg h₃],
          hchar ▸ lead_four (by omega) (by omega) rest⟩

theorem decodeFrom_encodeChars (cs done : List Char) (index : Nat) :
    decodeFrom done index (encodeChars cs) = .ok (done.reverse ++ cs) := by
  induction cs generalizing done index with
  | nil => simp [encodeChars, decodeFrom]
  | cons c cs ih =>
      obtain ⟨first, tail, hencode, hlead⟩ := exists_lead_encodeChar c (encodeChars cs)
      have hcons : encodeChars (c :: cs) = first :: (tail ++ encodeChars cs) := by
        simp [encodeChars, hencode]
      rw [hcons, decodeFrom, hlead]
      simp only [List.drop_left, ih, List.reverse_cons, List.append_assoc, List.singleton_append]

/-- The strict reader reads every text from its octets. -/
theorem decode?_encode (s : String) : decode? (encode s) = some s := by
  rw [decode?, read, encode, decodeFrom_encodeChars]
  simp

theorem decodeLenientFrom_of_decodeFrom {done cs : List Char} {index : Nat} {octets : Octets}
    (h : decodeFrom done index octets = .ok cs) : decodeLenientFrom done octets = cs := by
  induction done, index, octets using decodeFrom.induct with
  | case1 done index =>
      rw [decodeFrom, Except.ok.injEq] at h
      rw [decodeLenientFrom, h]
  | case2 done index first rest c more hlead ih =>
      rw [decodeFrom, hlead] at h
      rw [decodeLenientFrom, hlead]
      exact ih h
  | case3 done index first rest more hlead =>
      rw [decodeFrom, hlead] at h
      cases h
  | case4 done index first rest hlead =>
      rw [decodeFrom, hlead] at h
      cases h

/-- What the strict reader reads, the lenient one reads as the same text. -/
theorem decodeLenient_of_decode? {octets : Octets} {s : String} (h : decode? octets = some s) :
    decodeLenient octets = s := by
  unfold decode? read at h
  cases hread : decodeFrom [] 0 octets with
  | error defect => simp [hread] at h
  | ok cs =>
      simp only [hread, Option.some.injEq] at h
      rw [decodeLenient, decodeLenientFrom_of_decodeFrom hread, h]

/-- The lenient reader reads every text from its octets. -/
theorem decodeLenient_encode (s : String) : decodeLenient (encode s) = s :=
  decodeLenient_of_decode? (decode?_encode s)

end Courier.Text.Utf8
