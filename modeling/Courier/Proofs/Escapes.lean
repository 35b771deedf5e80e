import Courier.Proofs.QueryRoundTrip
import Courier.Url.Reader
/-!
What percent-encoding writes.  A class of octets spares some ASCII characters: they are written as
they are.  What is written has no other characters, so it is left as it is when it is written again,
and it has no characters that were not there before but those of the escapes.
-/
namespace Courier

namespace Text.Utf8

theorem le_of_mem_encodeChar {c : Char} (hbeyond : 0x80 ≤ c.toNat) :
    ∀ b ∈ encodeChar c, 0x80 ≤ b.toNat := by
  have hbounds := toNat_bounds c
  have hoctet : ∀ n, 0x80 ≤ n → n < 0x100 → 0x80 ≤ n.toUInt8.toNat := by
    intro n hlow hhigh
    rw [toNat_toUInt8 hhigh]
    exact hlow
  simp only [encodeChar, if_neg (Nat.not_lt.mpr hbeyond)]
  split_ifs with h₂ h₃
  · simp only [List.mem_cons, List.not_mem_nil, or_false, forall_eq_or_imp, forall_eq]
    exact ⟨hoctet _ (by omega) (by omega), hoctet _ (by omega) (by omega)⟩
  · simp only [List.mem_cons, List.not_mem_nil, or_false, forall_eq_or_imp, forall_eq]
    exact ⟨hoctet _ (by omega) (by omega), hoctet _ (by omega) (by omega),
      hoctet _ (by omega) (by omega)⟩
  · simp only [List.mem_cons, List.not_mem_nil, or_false, forall_eq_or_imp, forall_eq]
    exact ⟨hoctet _ (by omega) (by omega), hoctet _ (by omega) (by omega),
      hoctet _ (by omega) (by omega), hoctet _ (by omega) (by omega)⟩

/-- An ASCII octet stands for no other character than its own. -/
theorem ofNat_of_mem_encodeChar {b : UInt8} {c : Char} (hascii : b.toNat < 0x80)
    (h : b ∈ encodeChar c) : Char.ofNat b.toNat = c := by
  have hc : c.toNat < 0x80 := by
    by_contra hbeyond
    have hle := le_of_mem_encodeChar (Nat.le_of_not_lt hbeyond) b h
    omega
  simp only [encodeChar, if_pos hc, List.mem_singleton] at h
  rw [h, toNat_toUInt8 (by omega), Char.ofNat_toNat]

end Text.Utf8

namespace Url.Percent

open Text.Utf8 (toNat_toUInt8)

variable {mustEscape : EscapeClass} {c : Char} {cs : List Char}

/-- Is the character written as it is? -/
def spares (mustEscape : EscapeClass) (c : Char) : Bool :=
  c.toNat < 0x80 && !mustEscape c.toNat.toUInt8

theorem ne_of_spares {d : Char} (h : spares mustEscape c = true)
    (hescaped : spares mustEscape d = false) : c ≠ d := by
  rintro rfl
  rw [h] at hescaped
  exact absurd hescaped (by decide)

theorem toNat_ofNat_octet (b : UInt8) : (Char.ofNat b.toNat).toNat = b.toNat := by
  have hbound := b.toNat_lt
  have hvalid : b.toNat.isValidChar := .inl (by omega)
  unfold Char.ofNat
  rw [dif_pos hvalid]
  rfl

/-- The characters of escapes. -/
def escapeChars : List Char := "%0123456789ABCDEF".toList

theorem mem_escapeChars_of_mem_escape {b : UInt8} (h : c ∈ escape b) : c ∈ escapeChars := by
  have hdigit : ∀ n < 16, upperHex n ∈ escapeChars := by decide
  have hbound := b.toNat_lt
  simp only [escape, List.mem_cons, List.not_mem_nil, or_false] at h
  rcases h with rfl | rfl | rfl
  · decide
  · exact hdigit _ (by omega)
  · exact hdigit _ (by omega)

/-- Whatever stands for an octet needs no escape any more. -/
def Settles (mustEscape : EscapeClass) : Prop :=
  ∀ b, ∀ c ∈ encodeOctet mustEscape b, spares mustEscape c = true

/-- It is enough that controls and octets beyond ASCII are escaped, and the characters of escapes are
not. -/
theorem settles_of_spares (hcontrols : ∀ b, inControls b = true → mustEscape b = true)
    (hescapes : escapeChars.all (spares mustEscape) = true) : Settles mustEscape := by
  intro b c hc
  unfold encodeOctet at hc
  split_ifs at hc with hescaped
  · exact List.all_eq_true.mp hescapes c (mem_escapeChars_of_mem_escape hc)
  · have hplain : b < 0x7F := by
      by_contra hbeyond
      apply hescaped
      apply hcontrols
      simp [inControls, UInt8.not_lt.mp hbeyond]
    rw [List.mem_singleton.mp hc, spares, toNat_ofNat_octet, Bool.and_eq_true, decide_eq_true_eq]
    refine ⟨Nat.lt_trans (UInt8.lt_iff_toNat_lt.mp hplain) (by decide), ?_⟩
    simpa using hescaped

theorem settles_inFragment : Settles inFragment :=
  settles_of_spares (fun b h => by simp [inFragment, h]) (by decide)

theorem settles_inPath : Settles inPath :=
  settles_of_spares (fun b h => by simp [inPath, inFragment, h]) (by decide)

theorem settles_inUserInfo : Settles inUserInfo :=
  settles_of_spares (fun b h => by simp [inUserInfo, inPath, inFragment, h]) (by decide)

theorem settles_inSpecialQuery : Settles inSpecialQuery :=
  settles_of_spares (fun b h => by simp [inSpecialQuery, inQuery, h]) (by decide)

/-- Spared characters can be seen, in a class to which controls and the blank belong. -/
theorem lt_of_spares (hcontrols : ∀ b, inControls b = true → mustEscape b = true)
    (hblank : mustEscape 0x20 = true) (h : spares mustEscape c = true) : 0x20 < c.toNat := by
  simp only [spares, Bool.and_eq_true, decide_eq_true_eq, Bool.not_eq_true'] at h
  obtain ⟨hascii, hspared⟩ := h
  have hoctet := toNat_toUInt8 (show c.toNat < 0x100 by omega)
  by_contra hlow
  rcases Nat.lt_or_eq_of_le (Nat.le_of_not_lt hlow) with hcontrol | hequal
  · have hlt : c.toNat.toUInt8 < 0x20 := by
      rw [UInt8.lt_iff_toNat_lt, hoctet]
      exact hcontrol
    have hescaped := hcontrols c.toNat.toUInt8 (by simp [inControls, hlt])
    rw [hescaped] at hspared
    exact absurd hspared (by decide)
  · rw [hequal] at hspared
    exact absurd (hblank.symm.trans hspared) (by decide)

theorem lt_of_spares_inPath (h : spares inPath c = true) : 0x20 < c.toNat :=
  lt_of_spares (fun b h => by simp [inPath, inFragment, h]) (by decide) h

theorem lt_of_spares_inUserInfo (h : spares inUserInfo c = true) : 0x20 < c.toNat :=
  lt_of_spares (fun b h => by simp [inUserInfo, inPath, inFragment, h]) (by decide) h

theorem lt_of_spares_inSpecialQuery (h : spares inSpecialQuery c = true) : 0x20 < c.toNat :=
  lt_of_spares (fun b h => by simp [inSpecialQuery, inQuery, h]) (by decide) h

theorem lt_of_spares_inFragment (h : spares inFragment c = true) : 0x20 < c.toNat :=
  lt_of_spares (fun b h => by simp [inFragment, h]) (by decide) h

theorem encodeOctet_of_spares (h : spares mustEscape c = true) :
    (Text.Utf8.encodeChar c).flatMap (encodeOctet mustEscape) = [c] := by
  simp only [spares, Bool.and_eq_true, decide_eq_true_eq, Bool.not_eq_true'] at h
  obtain ⟨hascii, hspared⟩ := h
  simp [Text.Utf8.encodeChar, hascii, encodeOctet, hspared,
    toNat_toUInt8 (show c.toNat < 0x100 by omega)]

/-- Spared characters are written as they are. -/
theorem encode_of_spares (h : ∀ c ∈ cs, spares mustEscape c = true) :
    encode mustEscape cs = cs := by
  unfold encode Text.Utf8.encodeChars
  induction cs with
  | nil => rfl
  | cons c cs ih =>
      obtain ⟨hc, hcs⟩ := List.forall_mem_cons.mp h
      rw [List.flatMap_cons, List.flatMap_append, encodeOctet_of_spares hc, ih hcs,
        List.singleton_append]

theorem spares_of_mem_encode (hsettles : Settles mustEscape) (h : c ∈ encode mustEscape cs) :
    spares mustEscape c = true := by
  obtain ⟨b, _, hc⟩ := List.mem_flatMap.mp h
  exact hsettles b c hc

/-- What is written was there before or belongs to an escape. -/
theorem mem_or_of_mem_encode (hsettles : Settles mustEscape) (h : c ∈ encode mustEscape cs) :
    c ∈ cs ∨ c ∈ escapeChars := by
  have hspared := spares_of_mem_encode hsettles h
  obtain ⟨b, hb, hc⟩ := List.mem_flatMap.mp h
  obtain ⟨d, hd, hb⟩ := List.mem_flatMap.mp hb
  unfold encodeOctet at hc
  split_ifs at hc with hescaped
  · exact .inr (mem_escapeChars_of_mem_escape hc)
  · left
    rw [List.mem_singleton] at hc
    simp only [spares, Bool.and_eq_true, decide_eq_true_eq, hc, toNat_ofNat_octet] at hspared
    rw [hc, Text.Utf8.ofNat_of_mem_encodeChar hspared.1 hb]
    exact hd

end Url.Percent
end Courier
