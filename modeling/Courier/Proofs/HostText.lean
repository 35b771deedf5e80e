import Courier.Proofs.Escapes
import Courier.Proofs.Preparation
/-!
What the text of an authority is made of.  User info is escaped, names in their ASCII form have no
character that is forbidden in them, and addresses and ports are digits with a few signs between them;
so nothing in an authority that was read can be taken for its end.
-/
namespace Courier

theorem exists_of_mem_mapM {α β : Type} {f : α → Option β} {l : List α} {results : List β} {b : β}
    (h : l.mapM f = some results) (hb : b ∈ results) : ∃ a ∈ l, f a = some b := by
  induction l generalizing results with
  | nil =>
      rw [List.mapM_nil] at h
      cases h
      simp at hb
  | cons a l ih =>
      rw [List.mapM_cons] at h
      obtain ⟨first, hfirst, h⟩ := Option.bind_eq_some_iff.mp h
      obtain ⟨rest, hrest, h⟩ := Option.bind_eq_some_iff.mp h
      cases h
      rcases List.mem_cons.mp hb with rfl | hb
      · exact ⟨a, List.mem_cons_self, hfirst⟩
      · obtain ⟨other, hother, hsome⟩ := ih hrest hb
        exact ⟨other, List.mem_cons_of_mem _ hother, hsome⟩

theorem exists_of_map_eq_ok {ε α β : Type} {x : Except ε α} {f : α → β} {b : β}
    (h : f <$> x = .ok b) : ∃ a, f a = b := by
  cases x with
  | error e => cases h
  | ok a => exact ⟨a, Except.ok.inj h⟩

theorem mem_intersperse {α : Type} {separator part : α} {parts : List α}
    (h : part ∈ parts.intersperse separator) : part = separator ∨ part ∈ parts := by
  induction parts with
  | nil => simp at h
  | cons first parts ih =>
      cases parts with
      | nil => exact .inr h
      | cons next parts =>
          rw [List.intersperse_cons_cons, List.mem_cons, List.mem_cons] at h
          rcases h with rfl | rfl | h
          · exact .inr List.mem_cons_self
          · exact .inl rfl
          · exact (ih h).imp_right (List.mem_cons_of_mem first)

theorem mem_intercalate {α : Type} {separator : List α} {parts : List (List α)} {a : α}
    (h : a ∈ separator.intercalate parts) : a ∈ separator ∨ ∃ part ∈ parts, a ∈ part := by
  obtain ⟨part, hpart, ha⟩ := List.mem_flatten.mp h
  rcases mem_intersperse hpart with rfl | hpart
  · exact .inl ha
  · exact .inr ⟨part, hpart, ha⟩

namespace Url

/-- A character that can be seen and at which no authority ends. -/
def isInner (c : Char) : Bool :=
  0x20 < c.toNat && !isSlash true c && c != '?' && c != '#'

theorem isInner_of_ne {c : Char} (hlow : 0x20 < c.toNat) (hslash : c ≠ '/') (hback : c ≠ '\\')
    (hquestion : c ≠ '?') (hhash : c ≠ '#') : isInner c = true := by
  simp only [isInner, isSlash, Bool.and_eq_true, decide_eq_true_eq, Bool.not_eq_true',
    Bool.or_eq_false_iff, bne_iff_ne, Bool.true_and, beq_eq_false_iff_ne]
  exact ⟨⟨⟨hlow, hslash, hback⟩, hquestion⟩, hhash⟩

theorem parts_of_isInner {c : Char} (h : isInner c = true) :
    0x20 < c.toNat ∧ isSlash true c = false ∧ c ≠ '?' ∧ c ≠ '#' := by
  simp only [isInner, Bool.and_eq_true, decide_eq_true_eq, Bool.not_eq_true', bne_iff_ne] at h
  exact ⟨h.1.1.1, h.1.1.2, h.1.2, h.2⟩

theorem isInner_digitChar {d : Nat} (h : d < 16) : isInner d.digitChar = true := by
  have hall : (List.range 16).all (fun d => isInner d.digitChar) = true := by decide
  exact List.all_eq_true.mp hall d (List.mem_range.mpr h)

/-- The digits of a number are digits, in any base up to sixteen. -/
theorem isInner_of_mem_toDigits {base n : Nat} {c : Char} (hbase : 1 < base) (hle : base ≤ 16)
    (h : c ∈ Nat.toDigits base n) : isInner c = true := by
  induction n using Nat.strongRecOn with
  | _ n ih =>
      rw [Nat.toDigits_eq_if hbase] at h
      split_ifs at h with hlt
      · rw [List.mem_singleton.mp h]
        exact isInner_digitChar (by omega)
      · rcases List.mem_append.mp h with hfront | hlast
        · exact ih (n / base) (Nat.div_lt_self (by omega) hbase) hfront
        · rw [List.mem_singleton.mp hlast]
          exact isInner_digitChar (Nat.lt_of_lt_of_le (Nat.mod_lt n (by omega)) hle)

theorem isInner_of_mem_repr {n : Nat} {c : Char} (h : c ∈ (toString n).toList) :
    isInner c = true := by
  change c ∈ (String.ofList (Nat.toDigits 10 n)).toList at h
  rw [String.toList_ofList] at h
  exact isInner_of_mem_toDigits (by decide) (by decide) h

namespace Punycode

variable {c : Char} {label : List Char}

/-- The digits of the numbers, from 0 to 35. -/
def IsDigit (c : Char) : Prop := ∃ d < 36, c = digit d

theorem isInner_of_isDigit (h : IsDigit c) : isInner c = true := by
  obtain ⟨d, hd, rfl⟩ := h
  have hall : (List.range 36).all (fun d => isInner (digit d)) = true := by decide
  exact List.all_eq_true.mp hall d (List.mem_range.mpr hd)

theorem threshold_bounds (k bias : Nat) : 1 ≤ threshold k bias ∧ threshold k bias ≤ 26 := by
  unfold threshold
  split_ifs <;> omega

theorem isDigit_of_mem_encodeNumber {bias q k fuel : Nat} (h : c ∈ encodeNumber bias q k fuel) :
    IsDigit c := by
  have hthreshold := threshold_bounds k bias
  induction fuel generalizing q k with
  | zero => simp [encodeNumber] at h
  | succ fuel ih =>
      simp only [encodeNumber] at h
      split_ifs at h with hlast
      · exact ⟨q, by omega, List.mem_singleton.mp h⟩
      · rcases List.mem_cons.mp h with rfl | h
        · have hmod : (q - threshold k bias) % (base - threshold k bias) <
              base - threshold k bias := Nat.mod_lt _ (by unfold base; omega)
          exact ⟨_, by unfold base at hmod ⊢; omega, rfl⟩
        · exact ih h (threshold_bounds _ _)

theorem mem_out_encodePass {n basic : Nat} {state : Encoder} {codes : List Nat}
    (h : c ∈ (encodePass n basic state codes).out) : c ∈ state.out ∨ IsDigit c := by
  induction codes generalizing state with
  | nil => exact .inl h
  | cons code codes ih =>
      rw [encodePass] at h
      split_ifs at h with hless hequal
      · have hrest := ih h
        exact hrest
      · rcases ih h with hout | hdigit
        · rcases List.mem_append.mp hout with hbefore | hnumber
          · exact .inl hbefore
          · exact .inr (isDigit_of_mem_encodeNumber hnumber)
        · exact .inr hdigit
      · exact ih h

theorem mem_encodeFrom {codes passes : List Nat} {basic n : Nat} {state : Encoder}
    (h : c ∈ encodeFrom codes basic n state passes) : c ∈ state.out ∨ IsDigit c := by
  induction passes generalizing n state with
  | nil => exact .inl h
  | cons m passes ih =>
      rw [encodeFrom] at h
      rcases ih h with hout | hdigit
      · have hpass := mem_out_encodePass hout
        exact hpass
      · exact .inr hdigit

/-- What is written is a basic character of the label, the sign behind these, or a digit. -/
theorem mem_encode (h : c ∈ encode label) :
    (c ∈ label ∧ c.toNat < 128) ∨ c = '-' ∨ IsDigit c := by
  rcases mem_encodeFrom h with hstart | hdigit
  · dsimp only at hstart
    split_ifs at hstart with hempty
    · simp at hstart
    · rcases List.mem_append.mp hstart with hbasic | hsign
      · exact .inl (by simpa using hbasic)
      · exact .inr (.inl (List.mem_singleton.mp hsign))
  · exact .inr (.inr hdigit)

end Punycode

namespace Idna

variable {c : Char} {label written : List Char}

theorem isInner_of_isAllowed (hallowed : isAllowed c = true) (hascii : c.toNat < 0x80) :
    isInner c = true := by
  rw [isAllowed, if_pos hascii, Bool.not_eq_true', isForbidden, Bool.or_eq_false_iff,
    Bool.or_eq_false_iff, decide_eq_false_iff_not] at hallowed
  obtain ⟨⟨hlow, _⟩, hsigns⟩ := hallowed
  have hsign : ∀ d ∈ "%#/:<>?@[\\]^|".toList, c ≠ d := by
    rintro d hd rfl
    rw [List.contains_iff_mem.mpr hd] at hsigns
    exact absurd hsigns (by decide)
  exact isInner_of_ne (Nat.lt_of_not_le hlow) (hsign _ (by decide))
    (hsign _ (by decide)) (hsign _ (by decide)) (hsign _ (by decide))

theorem isAllowed_of_mem (hvalid : isValidLabel label = true) (h : c ∈ label) :
    isAllowed c = true := by
  unfold isValidLabel at hvalid
  exact List.all_eq_true.mp (Bool.and_eq_true_iff.mp hvalid).1 c h

theorem isInner_of_mem_encode (hvalid : isValidLabel label = true)
    (h : c ∈ Punycode.encode label) : isInner c = true := by
  rcases Punycode.mem_encode h with ⟨hthere, hascii⟩ | rfl | hdigit
  · exact isInner_of_isAllowed (isAllowed_of_mem hvalid hthere) hascii
  · decide
  · exact Punycode.isInner_of_isDigit hdigit

theorem isInner_of_mem_mark (h : c ∈ mark) : isInner c = true := by
  have hall : mark.all isInner = true := by decide
  exact List.all_eq_true.mp hall c h

/-- Each written label is the mark with the written form of a valid label, or a valid label in ASCII. -/
theorem cases_of_encodeLabel (h : encodeLabel? label = some written) :
    (∃ decoded, isValidLabel decoded = true ∧ written = mark ++ Punycode.encode decoded) ∨
      (isValidLabel written = true ∧ ∀ c ∈ written, c.toNat < 0x80) := by
  unfold encodeLabel? at h
  split_ifs at h with hmark hinvalid hascii
  · left
    dsimp only at h
    cases hdecoded : Punycode.decode? (label.drop 4) with
    | none => simp [hdecoded] at h
    | some decoded =>
        simp only [hdecoded, Option.ite_none_left_eq_some, Bool.or_eq_true, not_or,
          Option.some.injEq] at h
        obtain ⟨⟨⟨⟨_, hvalid⟩, _⟩, htail⟩, rfl⟩ := h
        obtain ⟨tail, rfl⟩ := List.isPrefixOf_iff_prefix.mp hmark
        have htail' : Punycode.encode decoded = tail := by simpa [mark] using htail
        exact ⟨decoded, by simpa using hvalid, by rw [htail']⟩
  · right
    cases h
    exact ⟨by simpa using hinvalid, by simpa using hascii⟩
  · left
    cases h
    exact ⟨label, by simpa using hinvalid, rfl⟩

theorem isInner_of_mem_encodeLabel (hwritten : encodeLabel? label = some written)
    (h : c ∈ written) : isInner c = true := by
  rcases cases_of_encodeLabel hwritten with ⟨decoded, hvalid, rfl⟩ | ⟨hvalid, hascii⟩
  · rcases List.mem_append.mp h with hmark | hlabel
    · exact isInner_of_mem_mark hmark
    · exact isInner_of_mem_encode hvalid hlabel
  · exact isInner_of_isAllowed (isAllowed_of_mem hvalid h) (hascii c h)

theorem mem_joinDots {labels : List (List Char)} (h : c ∈ joinDots labels) :
    c = '.' ∨ ∃ label ∈ labels, c ∈ label := by
  induction labels with
  | nil => simp [joinDots] at h
  | cons label labels ih =>
      cases labels with
      | nil => exact .inr ⟨label, List.mem_singleton_self _, h⟩
      | cons next labels =>
          rw [joinDots, List.mem_append, List.mem_cons] at h
          · rcases h with hlabel | rfl | hrest
            · exact .inr ⟨label, List.mem_cons_self, hlabel⟩
            · exact .inl rfl
            · rcases ih hrest with hdot | ⟨other, hother, hc⟩
              · exact .inl hdot
              · exact .inr ⟨other, List.mem_cons_of_mem _ hother, hc⟩
          · simp

theorem isInner_of_mem_toAscii {name text : String} (htext : toAscii? name = some text)
    (h : c ∈ text.toList) : isInner c = true := by
  obtain ⟨labels, hlabels, rfl⟩ := Option.map_eq_some_iff.mp htext
  rw [String.toList_ofList] at h
  rcases mem_joinDots h with rfl | ⟨written, hwritten, hc⟩
  · decide
  · obtain ⟨label, _, hlabel⟩ := exists_of_mem_mapM hlabels hwritten
    exact isInner_of_mem_encodeLabel hlabel hc

end Idna

namespace Host

variable {c : Char} {cs : List Char} {host : Host}

theorem isInner_of_mem_joinColons {groups : List Nat} (h : c ∈ (joinColons groups).toList) :
    isInner c = true := by
  rw [joinColons, Text.join, String.toList_intercalate, List.map_map] at h
  rcases mem_intercalate h with hcolon | ⟨part, hpart, hc⟩
  · rw [List.mem_singleton.mp hcolon]
    decide
  · obtain ⟨n, _, rfl⟩ := List.mem_map.mp hpart
    rw [Function.comp_apply, String.toList_ofList] at hc
    exact isInner_of_mem_toDigits (by decide) (by decide) hc

theorem isInner_of_mem_ipv6 {groups : List Nat} (h : c ∈ (Host.ipv6 groups).toText.toList) :
    isInner c = true := by
  have hshown : ∀ c ∈ (showIpv6 groups).toList, isInner c = true := by
    intro c hc
    unfold showIpv6 at hc
    dsimp only at hc
    split_ifs at hc
    · exact isInner_of_mem_joinColons hc
    · simp only [String.toList_append, List.mem_append] at hc
      rcases hc with (hfront | hcolons) | hback
      · exact isInner_of_mem_joinColons hfront
      · have hall : "::".toList.all isInner = true := by decide
        exact List.all_eq_true.mp hall c hcolons
      · exact isInner_of_mem_joinColons hback
  simp only [toText, String.toList_append, List.mem_append] at h
  rcases h with (hopen | hinside) | hclose
  · rw [List.mem_singleton.mp hopen]
    decide
  · exact hshown c hinside
  · rw [List.mem_singleton.mp hclose]
    decide

theorem isInner_of_mem_ipv4 {address : Nat} (h : c ∈ (Host.ipv4 address).toText.toList) :
    isInner c = true := by
  have hdot : ∀ c ∈ (toString ".").toList, isInner c = true :=
    List.all_eq_true.mp (by decide)
  simp only [toText, String.toList_append, List.mem_append] at h
  rcases h with (((((ha | hp) | hb) | hp) | hc) | hp) | hd
  · exact isInner_of_mem_repr ha
  · exact hdot c hp
  · exact isInner_of_mem_repr hb
  · exact hdot c hp
  · exact isInner_of_mem_repr hc
  · exact hdot c hp
  · exact isInner_of_mem_repr hd

theorem toList_ne_nil_of_ipv4 (address : Nat) : (Host.ipv4 address).toText.toList ≠ [] := by
  have hdot : '.' ∈ (Host.ipv4 address).toText.toList := by
    have hmem : '.' ∈ (toString ".").toList := by decide
    simp [toText, String.toList_append, hmem]
  exact List.ne_nil_of_mem hdot

theorem toList_ne_nil_of_ipv6 (groups : List Nat) : (Host.ipv6 groups).toText.toList ≠ [] := by
  simp [toText]

theorem exists_of_bracketed (h : bracketed? cs = some (.ok host)) :
    ∃ groups, Host.ipv6 groups = host := by
  unfold bracketed? at h
  split at h
  · split_ifs at h
    · exact exists_of_map_eq_ok (Option.some.inj h)
    · cases h
  · cases h

/-- Nothing in a host that was read ends an authority, and it is not empty. -/
theorem isInner_of_read (hread : Host.read cs = .ok host) :
    host.toText.toList ≠ [] ∧ ∀ c ∈ host.toText.toList, isInner c = true := by
  unfold Host.read at hread
  cases hbracketed : bracketed? cs with
  | some answer =>
      rw [hbracketed] at hread
      dsimp only at hread
      obtain ⟨groups, rfl⟩ := exists_of_bracketed (hread ▸ hbracketed)
      exact ⟨toList_ne_nil_of_ipv6 groups, fun c hc => isInner_of_mem_ipv6 hc⟩
  | none =>
      rw [hbracketed] at hread
      dsimp only at hread
      cases hname : (Percent.decode (Text.Utf8.encodeChars cs)).toText?.bind Idna.toAscii? with
      | none => simp [hname] at hread
      | some name =>
          rw [hname] at hread
          dsimp only at hread
          obtain ⟨decoded, _, hascii⟩ := Option.bind_eq_some_iff.mp hname
          split_ifs at hread with hempty hnumber
          · obtain ⟨address, rfl⟩ := exists_of_map_eq_ok hread
            exact ⟨toList_ne_nil_of_ipv4 address, fun c hc => isInner_of_mem_ipv4 hc⟩
          · obtain rfl := Except.ok.inj hread
            refine ⟨?_, fun c hc => Idna.isInner_of_mem_toAscii hascii hc⟩
            simpa [toText] using hempty

end Host

/-! ### Authorities -/

/-- What stands behind the two slashes. -/
def Authority.siteChars (a : Authority) : List Char :=
  (a.userInfo ++ a.host.toText ++ a.portText).toList

/-- Nothing in the authority ends it, and it is not empty. -/
structure Authority.IsWhole (a : Authority) : Prop where
  ne_nil : a.siteChars ≠ []
  inner : ∀ c ∈ a.siteChars, isInner c = true

theorem isInner_of_spares_inUserInfo {c : Char} (h : Percent.spares Percent.inUserInfo c = true) :
    isInner c = true :=
  isInner_of_ne (Percent.lt_of_spares_inUserInfo h) (Percent.ne_of_spares h (by decide))
    (Percent.ne_of_spares h (by decide)) (Percent.ne_of_spares h (by decide))
    (Percent.ne_of_spares h (by decide))

theorem isInner_of_mem_encodeUser {c : Char} {cs : List Char} (h : c ∈ (encodeUser cs).toList) :
    isInner c = true := by
  rw [encodeUser, String.toList_ofList] at h
  exact isInner_of_spares_inUserInfo (Percent.spares_of_mem_encode Percent.settles_inUserInfo h)

namespace Authority

variable {a : Authority} {c : Char}

theorem isInner_of_mem_userInfo (husername : ∀ c ∈ a.username.toList, isInner c = true)
    (hpassword : ∀ c ∈ a.password.toList, isInner c = true) (h : c ∈ a.userInfo.toList) :
    isInner c = true := by
  have hat : ∀ c ∈ "@".toList, isInner c = true := List.all_eq_true.mp (by decide)
  have hcolon : ∀ c ∈ ":".toList, isInner c = true := List.all_eq_true.mp (by decide)
  unfold userInfo at h
  split_ifs at h
  · simp at h
  · rw [String.toList_append] at h
    exact (List.mem_append.mp h).elim (husername c) (hat c)
  · simp only [String.toList_append, List.mem_append] at h
    rcases h with ((hname | hsign) | hsecret) | hend
    · exact husername c hname
    · exact hcolon c hsign
    · exact hpassword c hsecret
    · exact hat c hend

theorem isInner_of_mem_portText (h : c ∈ a.portText.toList) : isInner c = true := by
  have hcolon : ∀ c ∈ (toString ":").toList, isInner c = true :=
    List.all_eq_true.mp (by decide)
  unfold portText at h
  split at h
  · rw [String.toList_append] at h
    exact (List.mem_append.mp h).elim (hcolon c) isInner_of_mem_repr
  · simp at h

theorem isWhole_of_parts (hfull : a.host.toText.toList ≠ [])
    (hhost : ∀ c ∈ a.host.toText.toList, isInner c = true)
    (husername : ∀ c ∈ a.username.toList, isInner c = true)
    (hpassword : ∀ c ∈ a.password.toList, isInner c = true) : a.IsWhole := by
  constructor
  · simp only [siteChars, String.toList_append, ne_eq, List.append_eq_nil_iff, not_and]
    exact fun hinfo => absurd hinfo.2 hfull
  · intro c hc
    simp only [siteChars, String.toList_append, List.mem_append] at hc
    rcases hc with (hinfo | hname) | hport
    · exact isInner_of_mem_userInfo husername hpassword hinfo
    · exact hhost c hname
    · exact isInner_of_mem_portText hport

end Authority

/-- An authority that was read is whole. -/
theorem isWhole_of_readAuthority {scheme : String} {cs : List Char} {a : Authority}
    (hspecial : isSpecialScheme scheme = true) (hread : readAuthority scheme cs = .ok a) :
    a.IsWhole := by
  have hescaped : ∀ cs, ∀ c ∈ (encodeUser cs).toList, isInner c = true :=
    fun cs c hc => isInner_of_mem_encodeUser hc
  simp only [readAuthority, hspecial, Bool.true_or, Bool.and_true, if_true] at hread
  generalize (splitUserInfo cs).1 = user at hread
  generalize splitPort false (splitUserInfo cs).2 = site at hread
  split_ifs at hread with hempty
  · cases hread
  · obtain ⟨host, hhost, hread⟩ := bind_eq_ok_iff.mp hread
    obtain ⟨hfull, hinner⟩ := Host.isInner_of_read hhost
    have hparts : a.host = host ∧ (∀ c ∈ a.username.toList, isInner c = true) ∧
        ∀ c ∈ a.password.toList, isInner c = true := by
      cases hport : site.2 with
      | none =>
          rw [hport] at hread
          cases hread
          cases user with
          | none => exact ⟨rfl, by simp, by simp⟩
          | some info => exact ⟨rfl, hescaped _, hescaped _⟩
      | some digits =>
          rw [hport] at hread
          obtain ⟨port, _, hread⟩ := bind_eq_ok_iff.mp hread
          cases hread
          cases user with
          | none => exact ⟨rfl, by simp, by simp⟩
          | some info => exact ⟨rfl, hescaped _, hescaped _⟩
    obtain ⟨rfl, husername, hpassword⟩ := hparts
    exact Authority.isWhole_of_parts hfull hinner husername hpassword

end Url
end Courier
