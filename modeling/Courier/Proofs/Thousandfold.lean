import Courier.Quantity
/-!
A thousand times a float.  Floats are opened as far as their bits and their product by the model that
they have in the logic: a positive float is a whole number times a power of two, its product with
another one is rounded to as many bits, and the bits of the result say how large it is.  A float in
seconds comes to at least half a millisecond exactly if it is not below the float `0.0005`.
-/
namespace Courier

open Float.Model Float.Model.UnpackedFloat

namespace Decimal

/-- A mantissa and an exponent with as many bits as a float has, or with the least exponent. -/
structure Canonical (m : Nat) (e : Int) : Prop where
  below : m < Nat.pow 2 53
  full : Nat.pow 2 52 ≤ m ∨ e = -1074
  least : -1074 ≤ e

theorem mantissa_shift (em : ExtendedMantissa) (k : Nat) :
    (em >>> k).mantissa = em.mantissa / Nat.pow 2 k := by
  change (Nat.repeat ExtendedMantissa.shiftRightOne k em).mantissa = _
  induction k with
  | zero => simp [Nat.repeat]
  | succ k ih =>
      change (Nat.repeat ExtendedMantissa.shiftRightOne k em).mantissa / 2 = _
      rw [ih, Nat.div_div_eq_div_mul]
      rfl

/-- A rounded mantissa is the whole part or the next number. -/
theorem roundedMantissa_bounds (em : ExtendedMantissa) :
    em.mantissa ≤ em.roundedMantissa ∧ em.roundedMantissa ≤ em.mantissa + 1 := by
  rcases em with ⟨m, round, sticky⟩
  have hparity := Nat.mod_lt m Nat.two_pos
  cases round <;> cases sticky <;>
    simp only [ExtendedMantissa.roundedMantissa, ExtendedMantissa.accuracy,
      Accuracy.roundToNearestEven] <;> omega

/-- The exponent to which a number is rounded. -/
def roundUnit (n : Nat) (e : Int) : Int := max (n.log2 + e - 52) (-1074)

theorem targetExponent_eq (n : Nat) (e : Int) :
    Format.binary64.targetExponent (totalExponent n e) = roundUnit n e := by
  change max ((n.log2 : Int) + 1 + e - 53) (-1074) = roundUnit n e
  rw [roundUnit]
  omega

/-- What has no more bits than a float is not shifted. -/
theorem shiftToTargetExponent_of_lt {n : Nat} {e : Int} (hn : n < Nat.pow 2 53) (he : -1074 ≤ e) :
    shiftToTargetExponent Format.binary64 n e .exact = (⟨n, false, false⟩, e) := by
  have hlog : n.log2 ≤ 52 := by
    rcases Nat.eq_zero_or_pos n with rfl | hpos
    · decide
    · exact Nat.lt_succ_iff.mp ((Nat.log2_lt (Nat.ne_of_gt hpos)).mpr hn)
  have hshift : (Format.binary64.targetExponent (totalExponent n e) - e).toNat = 0 := by
    rw [targetExponent_eq, roundUnit]
    omega
  simp only [shiftToTargetExponent, shiftToExponent, hshift]
  exact Prod.ext rfl (Int.add_zero e)

/-- A mantissa that was rounded up to one more bit is halved. -/
theorem shiftToTargetExponent_full {e : Int} (he : -1074 ≤ e) :
    shiftToTargetExponent Format.binary64 (Nat.pow 2 53) e .exact =
      (⟨Nat.pow 2 52, false, false⟩, e + 1) := by
  have hlog : (Nat.pow 2 53).log2 = 53 := Nat.log2_two_pow
  have hshift : (Format.binary64.targetExponent (totalExponent (Nat.pow 2 53) e) - e).toNat = 1 := by
    rw [targetExponent_eq, roundUnit, hlog]
    omega
  simp only [shiftToTargetExponent, shiftToExponent, hshift]
  rfl

/-- An exact number is shifted, rounded, and shifted once more. -/
theorem round_of_shifts {n : Nat} {e e₁ e₂ : Int} {em em' : ExtendedMantissa} (s : Sign)
    (hfirst : shiftToTargetExponent Format.binary64 n e .exact = (em, e₁))
    (hagain : shiftToTargetExponent Format.binary64 em.roundedMantissa e₁ .exact = (em', e₂)) :
    (em'.mantissa = 0 → roundWithAccuracy Format.binary64 s n e .exact = .zero s) ∧
    ∀ hpos, roundWithAccuracy Format.binary64 s n e .exact = .finite s em'.mantissa e₂ hpos := by
  unfold roundWithAccuracy
  rw [hfirst]
  dsimp only
  rw [hagain]
  exact ⟨fun hzero => dif_pos hzero, fun hpos => dif_neg (Nat.ne_of_gt hpos)⟩

theorem shift_eq {n : Nat} {e : Int} (he : e ≤ roundUnit n e) :
    shiftToTargetExponent Format.binary64 n e .exact =
      ((⟨n, false, false⟩ : ExtendedMantissa) >>> (roundUnit n e - e).toNat, roundUnit n e) := by
  simp only [shiftToTargetExponent, targetExponent_eq, shiftToExponent]
  exact Prod.ext rfl (by omega)

/-- A shifted mantissa has no more bits than a float. -/
theorem shifted_lt (n : Nat) (e : Int) :
    n / Nat.pow 2 (roundUnit n e - e).toNat < Nat.pow 2 53 := by
  have hbits : n.log2 + 1 ≤ 53 + (roundUnit n e - e).toNat := by
    unfold roundUnit
    omega
  refine (Nat.div_lt_iff_lt_mul (Nat.pow_pos Nat.two_pos)).mpr ?_
  calc
    n < Nat.pow 2 (n.log2 + 1) := Nat.lt_log2_self
    _ ≤ Nat.pow 2 (53 + (roundUnit n e - e).toNat) := Nat.pow_le_pow_right Nat.two_pos hbits
    _ = Nat.pow 2 53 * Nat.pow 2 (roundUnit n e - e).toNat := Nat.pow_add 2 53 _

/-- A shifted mantissa has as many bits as a float, or the least exponent. -/
theorem shifted_full {n : Nat} {e : Int} (he : e ≤ roundUnit n e) :
    Nat.pow 2 52 ≤ n / Nat.pow 2 (roundUnit n e - e).toNat ∨ roundUnit n e = -1074 := by
  rcases Nat.eq_zero_or_pos n with rfl | hpos
  · have hlog : Nat.log2 0 = 0 := rfl
    rw [roundUnit, hlog] at he
    exact .inr (by rw [roundUnit, hlog]; omega)
  · by_cases hunit : roundUnit n e = -1074
    · exact .inr hunit
    · have hbits : 52 + (roundUnit n e - e).toNat = n.log2 := by
        unfold roundUnit at he hunit ⊢
        omega
      refine .inl ((Nat.le_div_iff_mul_le (Nat.pow_pos Nat.two_pos)).mpr ?_)
      calc
        Nat.pow 2 52 * Nat.pow 2 (roundUnit n e - e).toNat
          = Nat.pow 2 (52 + (roundUnit n e - e).toNat) := (Nat.pow_add 2 52 _).symm
        _ = Nat.pow 2 n.log2 := by rw [hbits]
        _ ≤ n := Nat.log2_self_le (Nat.ne_of_gt hpos)

/-- An exact number is rounded to zero or to a float with the exponent to which it is rounded; the next
exponent is reached by a mantissa with all bits set that is rounded up. -/
theorem round_exact (s : Sign) {n : Nat} {e : Int} (he : e ≤ roundUnit n e) :
    (n / Nat.pow 2 (roundUnit n e - e).toNat = 0 ∧
        roundWithAccuracy Format.binary64 s n e .exact = .zero s) ∨
      ∃ r e' hpos, roundWithAccuracy Format.binary64 s n e .exact = .finite s r e' hpos ∧
        Canonical r e' ∧ (e' = roundUnit n e ∨ e' = roundUnit n e + 1 ∧
          n / Nat.pow 2 (roundUnit n e - e).toNat + 1 = Nat.pow 2 53) := by
  have hleast : -1074 ≤ roundUnit n e := Int.le_max_right _ _
  have hlt := shifted_lt n e
  have hfull := shifted_full he
  generalize hem : (⟨n, false, false⟩ : ExtendedMantissa) >>> (roundUnit n e - e).toNat = em
  have hfirst := shift_eq he
  have hmantissa := mantissa_shift ⟨n, false, false⟩ (roundUnit n e - e).toNat
  rw [hem] at hfirst hmantissa
  obtain ⟨hlow, hhigh⟩ := roundedMantissa_bounds em
  rw [hmantissa] at hlow hhigh
  -- a mantissa that is rounded up may need one more bit; the second shift takes it away again
  rcases Nat.lt_or_eq_of_le (Nat.le_trans hhigh hlt) with hsmall | hcarry
  · obtain ⟨hzero, hfinite⟩ := round_of_shifts s hfirst (shiftToTargetExponent_of_lt hsmall hleast)
    rcases Nat.eq_zero_or_pos em.roundedMantissa with hnone | hpos
    · rw [hnone] at hlow
      exact .inl ⟨Nat.le_zero.mp hlow, hzero hnone⟩
    · exact .inr ⟨_, _, hpos, hfinite hpos,
        ⟨hsmall, hfull.imp_left (Nat.le_trans · hlow), hleast⟩, .inl rfl⟩
  · have hagain := shiftToTargetExponent_full hleast
    rw [← hcarry] at hagain
    obtain ⟨_, hfinite⟩ := round_of_shifts s hfirst hagain
    exact .inr ⟨_, _, by decide, hfinite (by decide),
      ⟨by decide, .inl (Nat.le_refl _), Int.le_trans hleast (Int.le_add_of_nonneg_right (by decide))⟩,
      .inr ⟨rfl, Nat.le_antisymm hlt (hcarry ▸ hhigh)⟩⟩

theorem toNat_append_low {k : Nat} (high : BitVec k) (low : BitVec 52) :
    (high ++ low).toNat = high.toNat * Nat.pow 2 52 + low.toNat := by
  rw [BitVec.toNat_append, ← Nat.shiftLeft_add_eq_or_of_lt low.isLt, Nat.shiftLeft_eq]

theorem toNat_packComponents (exponent : BitVec 11) (mantissa : BitVec 52) :
    (packComponents Format.binary64 .positive exponent mantissa).toNat =
      exponent.toNat * Nat.pow 2 52 + mantissa.toNat := by
  unfold packComponents
  refine (toNat_append_low _ mantissa).trans ?_
  have hsign : (Sign.positive.toBitVec ++ exponent).toNat = exponent.toNat := by
    rw [BitVec.toNat_append, ← Nat.shiftLeft_add_eq_or_of_lt exponent.isLt]
    simp [Sign.toBitVec]
  rw [hsign]

/-- The number that bits stand for is canonical. -/
theorem canonical_of_unpack {b : BitVec 64} {s : Sign} {m : Nat} {e : Int} {hm : 0 < m}
    (h : UnpackedFloat.unpack Format.binary64 b = .finite s m e hm) : Canonical m e := by
  have hfraction : (@unpackMantissa Format.binary64 b).toNat < Nat.pow 2 52 :=
    (@unpackMantissa Format.binary64 b).isLt
  have hmantissa := toNat_append_low 1#1 (@unpackMantissa Format.binary64 b)
  have hone : (1#1).toNat = 1 := rfl
  delta UnpackedFloat.unpack at h
  dsimp only at h
  by_cases hones : @unpackExponent Format.binary64 b = -1#11
  · rw [if_pos hones] at h
    by_cases hnothing : @unpackMantissa Format.binary64 b = 0#52
    · rw [if_pos hnothing] at h
      cases h
    · rw [if_neg hnothing] at h
      cases h
  · rw [if_neg hones] at h
    by_cases hzeros : @unpackExponent Format.binary64 b = 0#11
    · rw [if_pos hzeros] at h
      by_cases hnothing : @unpackMantissa Format.binary64 b = 0#52
      · rw [dif_pos hnothing] at h
        cases h
      · rw [dif_neg hnothing] at h
        obtain ⟨_, rfl, rfl⟩ := UnpackedFloat.finite.inj h
        rw [hzeros]
        exact ⟨Nat.lt_trans hfraction (by decide), .inr rfl, Int.le_refl _⟩
    · rw [if_neg hzeros] at h
      obtain ⟨_, rfl, rfl⟩ := UnpackedFloat.finite.inj h
      have hpos : 0 < (@unpackExponent Format.binary64 b).toNat := by
        rw [Nat.pos_iff_ne_zero]
        intro hzero
        exact hzeros (BitVec.eq_of_toNat_eq hzero)
      constructor
      · change (1#1 ++ @unpackMantissa Format.binary64 b).toNat < _
        rw [hmantissa, hone, Nat.one_mul]
        exact Nat.add_lt_add_left hfraction _
      · change _ ≤ (1#1 ++ @unpackMantissa Format.binary64 b).toNat ∨ _
        rw [hmantissa, hone, Nat.one_mul]
        exact .inl (Nat.le_add_right _ _)
      · change (-1074 : Int) ≤ ((@unpackExponent Format.binary64 b).toNat : Int) - (1023 + 52)
        omega

theorem toBits_pack (f : UnpackedFloat) :
    (Float.ofModel (Float.Model.pack f)).toBits.toNat = (UnpackedFloat.pack Format.binary64 f).toNat :=
  rfl

theorem wholeNearest_zero {x : Float} (h : x.toBits.toNat = 0) : wholeNearest x = 0 := by
  rw [wholeNearest, h]
  decide +kernel

theorem pack_finite {m : Nat} {e : Int} (hm : 0 < m) :
    UnpackedFloat.pack Format.binary64 (.finite .positive m e hm) =
      if 2048 ≤ (e + 1075).toNat + 1 then packComponents Format.binary64 .positive (-1#11) 0
      else if m.log2 + 1 = 53 then
        packComponents Format.binary64 .positive (BitVec.ofNat 11 (e + 1075).toNat) (BitVec.ofNat 52 m)
      else packComponents Format.binary64 .positive 0#11 (BitVec.ofNat 52 m) := by
  have hbias : e + (Format.binary64.exponentBias : Int) + (52 : Nat) = e + 1075 := by
    change e + 1023 + 52 = _
    omega
  rw [← hbias]
  rfl

/-- The bits of a positive number: those of infinity if it is too large, else the exponent in front of
the mantissa without its first bit; a number with fewer bits has none of an exponent. -/
theorem bits_of_canonical {m : Nat} {e : Int} (hm : 0 < m) (h : Canonical m e) :
    (UnpackedFloat.pack Format.binary64 (.finite .positive m e hm)).toNat =
      if 972 ≤ e then 2047 * Nat.pow 2 52
      else if Nat.pow 2 52 ≤ m then (e + 1075).toNat * Nat.pow 2 52 + (m - Nat.pow 2 52)
      else m := by
  obtain ⟨hbelow, _, hleast⟩ := h
  rw [pack_finite]
  by_cases hlarge : 972 ≤ e
  · rw [if_pos hlarge, if_pos (by omega), toNat_packComponents]
    rfl
  · rw [if_neg hlarge, if_neg (by omega)]
    by_cases hfull : Nat.pow 2 52 ≤ m
    · have hlog : m.log2 = 52 := (Nat.log2_eq_iff (Nat.ne_of_gt hm)).mpr ⟨hfull, hbelow⟩
      have hexponent : (BitVec.ofNat 11 (e + 1075).toNat).toNat = (e + 1075).toNat :=
        Nat.mod_eq_of_lt (by change _ < 2048; omega)
      have hfraction : (BitVec.ofNat 52 m).toNat = m - Nat.pow 2 52 := by
        change m % Nat.pow 2 52 = _
        simp only [Nat.pow_eq] at hfull hbelow ⊢
        omega
      rw [if_pos (by omega), if_pos hfull, toNat_packComponents, hexponent, hfraction]
    · have hlog : m.log2 < 52 := (Nat.log2_lt (Nat.ne_of_gt hm)).mpr (Nat.lt_of_not_le hfull)
      have hfraction : (BitVec.ofNat 52 m).toNat = m := Nat.mod_eq_of_lt (Nat.lt_of_not_le hfull)
      rw [if_neg (by omega), if_neg hfull, toNat_packComponents, hfraction]
      simp

/-- The bits of a positive number are read back as its mantissa and its exponent. -/
theorem ofBits_of_canonical {m : Nat} {e : Int} (hm : 0 < m) (h : Canonical m e) (he : e < 972) :
    (Dyadic.ofBits
        (UnpackedFloat.pack Format.binary64 (.finite .positive m e hm)).toNat).mantissa = m ∧
      (Dyadic.ofBits
        (UnpackedFloat.pack Format.binary64 (.finite .positive m e hm)).toNat).exponent = e := by
  rw [bits_of_canonical hm h, if_neg (by omega)]
  obtain ⟨hbelow, hfull, hleast⟩ := h
  unfold Dyadic.ofBits
  by_cases hwhole : Nat.pow 2 52 ≤ m
  · have hfield : ((e + 1075).toNat * Nat.pow 2 52 + (m - Nat.pow 2 52)) /
        Nat.pow 2 52 % Nat.pow 2 11 = (e + 1075).toNat := by
      simp only [Nat.pow_eq] at hwhole hbelow ⊢
      omega
    have hfraction : ((e + 1075).toNat * Nat.pow 2 52 + (m - Nat.pow 2 52)) %
        Nat.pow 2 52 = m - Nat.pow 2 52 := by
      simp only [Nat.pow_eq] at hwhole hbelow ⊢
      omega
    have hpos : ¬ (e + 1075).toNat = 0 := by
      simp only [Nat.pow_eq] at hwhole hfull
      omega
    rw [if_pos hwhole]
    simp only [hfield, hfraction, if_neg hpos]
    refine ⟨Nat.add_sub_cancel' hwhole, ?_⟩
    change ((e + 1075).toNat : Int) - 1075 = e
    omega
  · have hless := Nat.lt_of_not_le hwhole
    have hfield : m / Nat.pow 2 52 % Nat.pow 2 11 = 0 := by
      rw [Nat.div_eq_of_lt hless, Nat.zero_mod]
    rw [if_neg hwhole]
    simp only [hfield, Nat.mod_eq_of_lt hless, ↓reduceIte]
    exact ⟨trivial, (hfull.resolve_left hwhole).symm⟩

/-- A number comes to at least half of one exactly if its last bit stands for at least so much. -/
theorem half_le_iff {m : Nat} {e : Int} (h : Canonical m e) :
    Nat.pow 2 (-e).toNat ≤ 2 * (m * Nat.pow 2 e.toNat) ↔ -53 ≤ e := by
  obtain ⟨hbelow, hfull, hleast⟩ := h
  constructor
  · intro hhalf
    apply Int.not_lt.mp
    intro hsmall
    have hone : Nat.pow 2 e.toNat = 1 := by
      rw [Int.toNat_of_nonpos (by omega)]
    have hpow : Nat.pow 2 54 ≤ Nat.pow 2 (-e).toNat :=
      Nat.pow_le_pow_right Nat.two_pos (by omega)
    have hdouble : Nat.pow 2 54 = 2 * Nat.pow 2 53 := rfl
    rw [hone] at hhalf
    omega
  · intro hlarge
    have hpow : Nat.pow 2 (-e).toNat ≤ Nat.pow 2 53 :=
      Nat.pow_le_pow_right Nat.two_pos (by omega)
    have hdouble : Nat.pow 2 53 = 2 * Nat.pow 2 52 := rfl
    have hone : 1 ≤ Nat.pow 2 e.toNat := Nat.pow_pos Nat.two_pos
    have hprod : m * 1 ≤ m * Nat.pow 2 e.toNat := Nat.mul_le_mul_left m hone
    have hwhole : Nat.pow 2 52 ≤ m := hfull.resolve_right (by omega)
    omega

/-- A number is rounded to one other than zero exactly if it comes to at least half of one. -/
theorem wholeNearest_pos_iff {m : Nat} {e : Int} (hm : 0 < m) (h : Canonical m e) :
    0 < wholeNearest (.ofModel (.pack (.finite .positive m e hm))) ↔ -53 ≤ e := by
  have hbits := bits_of_canonical hm h
  by_cases hlarge : 972 ≤ e
  · rw [if_pos hlarge] at hbits
    rw [wholeNearest, toBits_pack, hbits]
    exact iff_of_true (by decide +kernel) (by omega)
  · obtain ⟨hmantissa, hexponent⟩ := ofBits_of_canonical hm h (by omega)
    have hnumber : ¬ 2047 * Nat.pow 2 52 <
        (UnpackedFloat.pack Format.binary64 (.finite .positive m e hm)).toNat := by
      obtain ⟨hbelow, hfull, hleast⟩ := h
      rw [hbits, if_neg hlarge]
      simp only [Nat.pow_eq] at hbelow ⊢
      split <;> omega
    have hden : 0 < Nat.pow 2 (-e).toNat := Nat.pow_pos Nat.two_pos
    have hmax : 0 < Nat.pow 2 64 - 1 := by decide
    rw [wholeNearest, toBits_pack, if_neg hnumber]
    dsimp only
    rw [hmantissa, hexponent, ← half_le_iff h, Nat.lt_min, Nat.div_pos_iff]
    constructor
    · rintro ⟨⟨_, hle⟩, _⟩
      omega
    · intro hhalf
      exact ⟨⟨by omega, by omega⟩, hmax⟩

/-- The mantissa of a thousand; the last of its bits stands for `2 ^ -43`. -/
def thousand : Nat := 1000 * Nat.pow 2 43

/-- The mantissa of the float `0.0005`; the last of its bits stands for `2 ^ -63`. -/
def halfMilli : Nat := 4611686018427388

theorem unpack_thousand :
    (1000.0 : Float).toModel.unpack = .finite .positive thousand (-43) (by decide) :=
  rfl

theorem unpack_half_milli :
    (0.0005 : Float).toModel.unpack = .finite .positive halfMilli (-63) (by decide) :=
  rfl

/-- The unit of a thousandfold: the mantissa of a thousand is ten bits over a power of two, and whether
the product has the last of them is decided by the mantissa. -/
theorem thousandfold_unit {m : Nat} {e : Int} (h : Canonical m e) (hfull : Nat.pow 2 52 ≤ m) :
    roundUnit (m * thousand) (e + -43) = if m < halfMilli then e + 9 else e + 10 := by
  obtain ⟨hbelow, _, hleast⟩ := h
  by_cases hlow : m < halfMilli
  · have hlog : (m * thousand).log2 = 104 := by
      simp only [thousand, halfMilli, Nat.pow_eq] at hfull hlow ⊢
      exact (Nat.log2_eq_iff (by omega)).mpr ⟨by omega, by omega⟩
    rw [if_pos hlow, roundUnit, hlog]
    omega
  · have hlog : (m * thousand).log2 = 105 := by
      simp only [thousand, halfMilli, Nat.pow_eq] at hbelow hlow ⊢
      exact (Nat.log2_eq_iff (by omega)).mpr ⟨by omega, by omega⟩
    rw [if_neg hlow, roundUnit, hlog]
    omega

/-- The shifted mantissa of a thousandfold is neither zero nor has it all bits set. -/
theorem thousandfold_shifted {m : Nat} {e : Int} (h : Canonical m e) (hfull : Nat.pow 2 52 ≤ m) :
    0 < m * thousand / Nat.pow 2 (roundUnit (m * thousand) (e + -43) - (e + -43)).toNat ∧
      m * thousand / Nat.pow 2 (roundUnit (m * thousand) (e + -43) - (e + -43)).toNat + 1 <
        Nat.pow 2 53 := by
  rw [thousandfold_unit h hfull]
  obtain ⟨hbelow, _, _⟩ := h
  by_cases hlow : m < halfMilli
  · rw [if_pos hlow, (by omega : (e + 9 - (e + -43)).toNat = 52)]
    simp only [thousand, halfMilli, Nat.pow_eq] at hfull hlow ⊢
    omega
  · rw [if_neg hlow, (by omega : (e + 10 - (e + -43)).toNat = 53)]
    simp only [thousand, Nat.pow_eq] at hfull hbelow ⊢
    omega

/-- The thousandfold of a number whose mantissa has all bits has the exponent of its unit. -/
theorem round_thousandfold {m : Nat} {e : Int} (h : Canonical m e) (hfull : Nat.pow 2 52 ≤ m) :
    ∃ r e' hpos, roundWithAccuracy Format.binary64 .positive (m * thousand) (e + -43) .exact =
        .finite .positive r e' hpos ∧ Canonical r e' ∧
      e' = if m < halfMilli then e + 9 else e + 10 := by
  have hunit := thousandfold_unit h hfull
  obtain ⟨hsome, hroom⟩ := thousandfold_shifted h hfull
  rcases round_exact .positive (by rw [hunit]; split <;> omega) with
    ⟨hnone, _⟩ | ⟨r, e', hpos, hround, hcanonical, hexponent | ⟨_, hcarry⟩⟩
  · exact absurd hnone (Nat.ne_of_gt hsome)
  · exact ⟨r, e', hpos, hround, hcanonical, hexponent.trans hunit⟩
  · exact absurd hcarry (Nat.ne_of_lt hroom)

/-- The thousandfold of a number with fewer bits is far below one. -/
theorem round_thousandfold_small {m : Nat} (hbelow : m < Nat.pow 2 53) :
    roundWithAccuracy Format.binary64 .positive (m * thousand) (-1074 + -43) .exact =
        .zero .positive ∨
      ∃ r e' hpos, roundWithAccuracy Format.binary64 .positive (m * thousand) (-1074 + -43)
          .exact = .finite .positive r e' hpos ∧ Canonical r e' ∧ e' < -53 := by
  have hunit : -1074 ≤ roundUnit (m * thousand) (-1074 + -43) ∧
      roundUnit (m * thousand) (-1074 + -43) ≤ -1063 := by
    have hlog : (m * thousand).log2 ≤ 106 := by
      rcases Nat.eq_zero_or_pos (m * thousand) with hzero | hpos
      · rw [hzero]
        decide
      · refine Nat.lt_succ_iff.mp ((Nat.log2_lt (Nat.ne_of_gt hpos)).mpr ?_)
        simp only [thousand, Nat.pow_eq] at hbelow ⊢
        omega
    unfold roundUnit
    omega
  obtain ⟨hleast, hmost⟩ := hunit
  rcases round_exact .positive (Int.le_trans (by decide : (-1074 + -43 : Int) ≤ -1074) hleast) with
    ⟨_, hzero⟩ | ⟨r, e', hpos, hround, hcanonical, hexponent⟩
  · exact .inl hzero
  · exact .inr ⟨r, e', hpos, hround, hcanonical, by omega⟩

/-- The thousandfold of a positive number is rounded to a number other than zero exactly if the number
has an exponent and a mantissa of at least `0.0005`. -/
theorem wholeNearest_thousandfold_pos_iff {x : Float} {m : Nat} {e : Int} {hm : 0 < m}
    (h : x.toModel.unpack = .finite .positive m e hm) :
    0 < wholeNearest (x * 1000.0) ↔ -63 < e ∨ e = -63 ∧ halfMilli ≤ m := by
  have hcanonical : Canonical m e := canonical_of_unpack h
  have hproduct : x * 1000.0 = .ofModel (.pack (roundWithAccuracy Format.binary64 .positive
      (m * thousand) (e + -43) .exact)) := by
    change Float.ofModel (.pack (UnpackedFloat.mul Format.binary64 x.toModel.unpack
      (1000.0 : Float).toModel.unpack)) = _
    rw [h, unpack_thousand]
    rfl
  rw [hproduct]
  -- a number with fewer bits is so small that a bound on its exponent is enough
  by_cases hfull : Nat.pow 2 52 ≤ m
  · obtain ⟨r, e', hpos, hround, hresult, hexponent⟩ := round_thousandfold hcanonical hfull
    rw [hround, wholeNearest_pos_iff hpos hresult, hexponent]
    split <;> omega
  · obtain rfl : e = -1074 := hcanonical.full.resolve_left hfull
    rcases round_thousandfold_small hcanonical.below with
      hzero | ⟨r, e', hpos, hround, hresult, hsmall⟩
    · rw [hzero, wholeNearest_zero rfl]
      omega
    · rw [hround, wholeNearest_pos_iff hpos hresult]
      omega

theorem le_iff_unpack (x y : Float) : x ≤ y ↔ x.toModel.unpack.le y.toModel.unpack = true :=
  decide_eq_true_iff

/-- Positive numbers are compared by their exponents and then by their mantissas. -/
theorem half_milli_le_iff {x : Float} {m : Nat} {e : Int} {hm : 0 < m}
    (h : x.toModel.unpack = .finite .positive m e hm) :
    0.0005 ≤ x ↔ -63 < e ∨ e = -63 ∧ halfMilli ≤ m := by
  rw [le_iff_unpack, h, unpack_half_milli]
  change ((compare (-63) e).then (compare halfMilli m)).isLE = true ↔ _
  rw [Ordering.isLE_then_iff_or, Int.compare_eq_lt, Int.compare_eq_eq, Nat.isLE_compare,
    eq_comm (a := e)]

/-- A finite number above zero is a mantissa with its exponent. -/
theorem unpack_of_pos {x : Float} (hfinite : x.isFinite = true) (hpos : ¬ x ≤ 0.0) :
    ∃ m e hm, x.toModel.unpack = .finite .positive m e hm := by
  have hzero : (0.0 : Float).toModel.unpack = .zero .positive := rfl
  change UnpackedFloat.isFinite x.toModel.unpack = true at hfinite
  rw [le_iff_unpack, hzero] at hpos
  cases hx : x.toModel.unpack with
  | infinity s =>
      rw [hx] at hfinite
      cases hfinite
  | notANumber =>
      rw [hx] at hfinite
      cases hfinite
  | zero s =>
      rw [hx] at hpos
      exact absurd rfl hpos
  | finite s m e hm =>
      cases s with
      | positive => exact ⟨m, e, hm, rfl⟩
      | negative =>
          rw [hx] at hpos
          exact absurd rfl hpos

end Decimal

open Decimal in
/-- A finite number of seconds above zero comes to at least one millisecond, rounded, exactly if it is
not below the float `0.0005`. -/
theorem wholeNearest_millis_pos_iff {x : Float} (hfinite : x.isFinite = true) (hpos : ¬ x ≤ 0.0) :
    0 < wholeNearest (x * 1000.0) ↔ 0.0005 ≤ x := by
  obtain ⟨m, e, hm, h⟩ := unpack_of_pos hfinite hpos
  rw [wholeNearest_thousandfold_pos_iff h, half_milli_le_iff h]

end Courier
