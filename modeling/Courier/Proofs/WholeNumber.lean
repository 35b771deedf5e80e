import Courier.Decimal.Integer
import Mathlib.Data.Nat.Basic
/-!
Whole numbers that are read.  A text denotes a whole number if it has digits and nothing else behind a
plus sign or none; leading zeros do not count.  The readers accept such a text if its number is within
the bound, however long it is, and refuse every other one.
-/
namespace Courier.Decimal

theorem digitValue?_of_isDigit {c : Char} (hc : c.isDigit = true) :
    digitValue? c = some (c.toNat - '0'.toNat) :=
  if_pos hc

theorem le_ofDigitChars (digits : List Char) (n : Nat) : n ≤ Nat.ofDigitChars 10 digits n := by
  rw [Nat.ofDigitChars_eq_ofDigitChars_zero]
  exact Nat.le_add_right_of_le (Nat.le_mul_of_pos_left n (Nat.pow_pos (by decide)))

variable {bound n m : Nat} {overflow : IntegerError} {digits : List Char} {s : String}

/-- Digits are read as their number, as long as it is within the bound. -/
theorem readDigits_eq (overflow : IntegerError) {digits : List Char} (n : Nat)
    (hdigits : ∀ c ∈ digits, c.isDigit = true) (hbound : Nat.ofDigitChars 10 digits n ≤ bound) :
    readDigits bound overflow n digits = .ok (Nat.ofDigitChars 10 digits n) := by
  induction digits generalizing n with
  | nil => rfl
  | cons c digits ih =>
      rw [Nat.ofDigitChars_cons] at hbound ⊢
      have hstep := Nat.le_trans (le_ofDigitChars digits _) hbound
      rw [readDigits, digitValue?_of_isDigit (hdigits c List.mem_cons_self)]
      simp only [if_pos hstep]
      exact ih _ (fun d hd => hdigits d (List.mem_cons_of_mem c hd)) hbound

/-- Nothing but digits within the bound is read. -/
theorem readDigits_eq_ok_iff (hn : n ≤ bound) :
    readDigits bound overflow n digits = .ok m ↔
      (∀ c ∈ digits, c.isDigit = true) ∧ Nat.ofDigitChars 10 digits n = m ∧ m ≤ bound := by
  constructor
  · intro h
    induction digits generalizing n with
    | nil =>
        cases h
        exact ⟨by simp, rfl, hn⟩
    | cons c digits ih =>
        rw [readDigits] at h
        cases hdigit : c.isDigit with
        | false => simp [digitValue?, hdigit] at h
        | true =>
            rw [digitValue?_of_isDigit hdigit] at h
            simp only at h
            split at h
            case isFalse => cases h
            case isTrue hstep =>
              obtain ⟨hdigits, hvalue, hm⟩ := ih hstep h
              exact ⟨List.forall_mem_cons.mpr ⟨hdigit, hdigits⟩, by rwa [Nat.ofDigitChars_cons], hm⟩
  · rintro ⟨hdigits, rfl, hm⟩
    exact readDigits_eq overflow n hdigits hm

/-- A number in digits, of which there is one at least. -/
structure IsNumber (digits : List Char) (n : Nat) : Prop where
  ne_nil : digits ≠ []
  isDigit : ∀ c ∈ digits, c.isDigit = true
  value : Nat.ofDigitChars 10 digits 0 = n

/-- The text is a number in digits, and a plus sign may stand in front of them. -/
def Denotes (s : String) (n : Nat) : Prop :=
  IsNumber s.toList n ∨ ∃ digits, s.toList = '+' :: digits ∧ IsNumber digits n

theorem not_isNumber_cons {c : Char} (hc : c.isDigit = false) : ¬ IsNumber (c :: digits) n := by
  intro h
  have hdigit := h.isDigit c List.mem_cons_self
  rw [hc] at hdigit
  cases hdigit

/-- Digits that are there at all are read if they are a number within the bound. -/
theorem readDigits_zero_iff (hdigits : digits ≠ []) :
    readDigits bound overflow 0 digits = .ok n ↔ IsNumber digits n ∧ n ≤ bound := by
  rw [readDigits_eq_ok_iff (Nat.zero_le bound), ← and_assoc]
  exact and_congr_left fun _ => ⟨fun ⟨h, hvalue⟩ => ⟨hdigits, h, hvalue⟩, fun h => ⟨h.isDigit, h.value⟩⟩

theorem denotes_iff_of_plus (h : s.toList = '+' :: digits) : Denotes s n ↔ IsNumber digits n := by
  rw [Denotes, h]
  constructor
  · rintro (hnumber | ⟨_, heq, hnumber⟩)
    · exact absurd hnumber (not_isNumber_cons (by decide))
    · rwa [(List.cons.inj heq).2]
  · exact fun hnumber => .inr ⟨digits, rfl, hnumber⟩

theorem denotes_iff_of_plain (h : ∀ digits, s.toList ≠ '+' :: digits) :
    Denotes s n ↔ IsNumber s.toList n := by
  constructor
  · rintro (hnumber | ⟨digits, heq, -⟩)
    · exact hnumber
    · exact absurd heq (h digits)
  · exact .inl

/-- A whole number is read from a text that denotes it and nothing else, within the bound. -/
theorem readNat_eq_ok_iff : readNat bound s = .ok n ↔ Denotes s n ∧ n ≤ bound := by
  unfold readNat
  split
  case h_1 h =>
    rw [denotes_iff_of_plain (by simp [h]), h]
    exact iff_of_false (by simp) fun ⟨hnumber, _⟩ => hnumber.ne_nil rfl
  case h_2 h =>
    rw [denotes_iff_of_plus h]
    exact iff_of_false (by simp) fun ⟨hnumber, _⟩ => hnumber.ne_nil rfl
  case h_3 digits hdigits h =>
    rw [denotes_iff_of_plus h, readDigits_zero_iff fun hnil => hdigits hnil]
  case h_4 hnil _ hplus =>
    rw [denotes_iff_of_plain fun digits h => hplus digits h, readDigits_zero_iff hnil]

theorem map_eq_ok_iff {f : Nat → Int} {read : Except IntegerError Nat} {i : Int} :
    f <$> read = .ok i ↔ ∃ n, read = .ok n ∧ i = f n := by
  cases read with
  | error e => exact iff_of_false (by rintro ⟨⟩) (by rintro ⟨_, ⟨⟩, _⟩)
  | ok n =>
      constructor
      · rintro ⟨⟩
        exact ⟨n, rfl, rfl⟩
      · rintro ⟨_, ⟨⟩, rfl⟩
        rfl

/-- With a sign, a number behind a minus sign may be one greater. -/
theorem readInt_eq_ok_iff {i : Int} :
    readInt bound s = .ok i ↔
      (∃ n, Denotes s n ∧ n ≤ bound ∧ i = n) ∨
        ∃ digits n, s.toList = '-' :: digits ∧ IsNumber digits n ∧ n ≤ bound + 1 ∧ i = -n := by
  have hminus : ∀ {digits n}, s.toList = '-' :: digits → ¬ Denotes s n := by
    intro digits n h
    rw [denotes_iff_of_plain (by simp [h]), h]
    exact not_isNumber_cons (by decide)
  unfold readInt
  split
  case h_1 h =>
    simp only [denotes_iff_of_plain (s := s) (by simp [h]), h]
    refine iff_of_false (by simp) ?_
    rintro (⟨n, hnumber, -⟩ | ⟨_, _, ⟨⟩, -⟩)
    exact hnumber.ne_nil rfl
  case h_2 h =>
    simp only [denotes_iff_of_plus h, h]
    refine iff_of_false (by simp) ?_
    rintro (⟨n, hnumber, -⟩ | ⟨_, _, ⟨⟩, -⟩)
    exact hnumber.ne_nil rfl
  case h_3 h =>
    simp only [hminus h, h]
    refine iff_of_false (by simp) ?_
    rintro (⟨_, ⟨⟩, -⟩ | ⟨_, n, ⟨⟩, hnumber, -⟩)
    exact hnumber.ne_nil rfl
  case h_4 digits hdigits h =>
    rw [map_eq_ok_iff]
    simp only [denotes_iff_of_plus h, readDigits_zero_iff fun hnil => hdigits hnil, h]
    simp [and_assoc]
  case h_5 digits hdigits h =>
    rw [map_eq_ok_iff]
    simp only [hminus h, readDigits_zero_iff fun hnil => hdigits hnil, h]
    simp [and_assoc]
  case h_6 hnil _ _ hplus hother =>
    rw [map_eq_ok_iff]
    simp only [denotes_iff_of_plain fun digits h => hplus digits h, readDigits_zero_iff hnil]
    have hnone : ∀ digits, s.toList ≠ '-' :: digits := fun digits h => hother digits h
    simp [and_assoc, hnone]

theorem readNat_toDigits (h : n ≤ bound) :
    readNat bound (String.ofList (Nat.toDigits 10 n)) = .ok n := by
  rw [readNat_eq_ok_iff, Denotes, String.toList_ofList]
  refine ⟨.inl ⟨Nat.toDigits_ne_nil, ?_, ?_⟩, h⟩
  · exact fun c hc => Nat.isDigit_of_mem_toDigits (by decide) (by decide) hc
  · exact Nat.ofDigitChars_toDigits (by decide) (by decide)

end Courier.Decimal
