import Courier.Credentials
import Courier.Proofs.QueryRoundTrip
import Courier.Redaction.Policy
import Mathlib.Data.List.Forall2
/-!
What a policy hides.  Headers, queries and requests that differ only in values under sensitive names
look the same where they are shown.  Requests that are signed with credentials of one kind, whose
secret goes under a sensitive name, differ in no other way.
-/
namespace Courier

namespace Text

theorem toLower_toLower (c : Char) : c.toLower.toLower = c.toLower := by
  have hA : 'A'.val.toNat = 65 := rfl
  have hZ : 'Z'.val.toNat = 90 := rfl
  have hshift : ('a'.val - 'A'.val).toNat = 32 := rfl
  unfold Char.toLower
  split_ifs with hupper hagain
  · simp only [ge_iff_le, UInt32.le_iff_toNat_le, UInt32.toNat_add] at hupper hagain
    omega
  · rfl
  · rfl

theorem lowerAscii_lowerAscii (s : String) : lowerAscii (lowerAscii s) = lowerAscii s := by
  simp only [lowerAscii, String.toList_ofList, List.map_map]
  congr 1
  exact List.map_congr_left fun c _ => toLower_toLower c

end Text

namespace RedactionPolicy

variable {policy : RedactionPolicy}

theorem isSensitive_lowerAscii (policy : RedactionPolicy) (name : String) :
    policy.isSensitive (Text.lowerAscii name) = policy.isSensitive name := by
  simp only [isSensitive, Text.lowerAscii_lowerAscii]

/-- Headers that are the same but for values under sensitive names. -/
def SameHeaders (policy : RedactionPolicy) (headers headers' : Headers) : Prop :=
  List.Forall₂ (fun field field' => field.1 = field'.1 ∧
    (policy.isSensitive field.1.text = true ∨ field.2 = field'.2)) headers.fields headers'.fields

/-- Pairs that are the same but for values under sensitive names. -/
def SamePairs (policy : RedactionPolicy) (pairs pairs' : Url.Pairs) : Prop :=
  List.Forall₂ (fun pair pair' => pair.1 = pair'.1 ∧
    (policy.isSensitive pair.1 = true ∨ pair.2 = pair'.2)) pairs pairs'

/-- URLs that are the same, or have the same pairs but for values under sensitive names, of which
there are some. -/
def SameUrl (policy : RedactionPolicy) (url url' : Url) : Prop :=
  url = url' ∨
    (url.bare = url'.bare ∧ policy.SamePairs url.pairs url'.pairs ∧
      ∃ pair ∈ url.pairs, policy.isSensitive pair.1 = true)

/-- Requests that are the same but for values under sensitive names. -/
structure SameRequest (policy : RedactionPolicy) (request request' : WireRequest) : Prop where
  method : request.method = request'.method
  url : policy.SameUrl request.url request'.url
  headers : policy.SameHeaders request.headers request'.headers
  body : request.body = request'.body

namespace SameHeaders

variable {headers headers' : Headers}

theorem refl (policy : RedactionPolicy) (headers : Headers) : policy.SameHeaders headers headers :=
  List.forall₂_same.mpr fun _ _ => ⟨rfl, .inr rfl⟩

theorem map_fst (h : policy.SameHeaders headers headers') :
    headers.fields.map (·.1) = headers'.fields.map (·.1) := by
  obtain ⟨fields⟩ := headers
  obtain ⟨fields'⟩ := headers'
  dsimp only [SameHeaders] at h
  induction h with
  | nil => rfl
  | cons hfield _ ih => rw [List.map_cons, List.map_cons, hfield.1, ih]

theorem names_eq (h : policy.SameHeaders headers headers') : headers.names = headers'.names := by
  rw [Headers.names, Headers.names, h.map_fst]

theorem contains_eq (h : policy.SameHeaders headers headers') (name : HeaderName) :
    headers.contains name = headers'.contains name := by
  have hnames := congrArg (fun names => names.any fun other => other = name) h.map_fst
  simp only [List.any_map, Function.comp_def] at hnames
  exact hnames

/-- The values under a name that is not sensitive are the same. -/
theorem getAll_eq (h : policy.SameHeaders headers headers') {name : HeaderName}
    (hname : policy.isSensitive name.text ≠ true) : headers.getAll name = headers'.getAll name := by
  obtain ⟨fields⟩ := headers
  obtain ⟨fields'⟩ := headers'
  dsimp only [SameHeaders] at h
  unfold Headers.getAll
  induction h with
  | nil => rfl
  | @cons field field' _ _ hfield _ ih =>
      obtain ⟨hsame, hvalue⟩ := hfield
      by_cases hthis : field.1 = name
      · have hother : field'.1 = name := hsame ▸ hthis
        have hvalue : field.2 = field'.2 := hvalue.resolve_left (by rw [hthis]; exact hname)
        simp only [List.filter_cons, hthis, hother, decide_true, if_true, List.map_cons, hvalue]
        exact congrArg _ ih
      · have hother : field'.1 ≠ name := hsame ▸ hthis
        simp only [List.filter_cons, hthis, hother, decide_false, Bool.false_eq_true, if_false]
        exact ih

theorem showHeaders_eq (h : policy.SameHeaders headers headers') :
    policy.showHeaders headers = policy.showHeaders headers' := by
  have hvalues : policy.showValues headers = policy.showValues headers' := by
    funext name
    unfold showValues
    by_cases hname : policy.isSensitive name.text = true
    · rw [if_pos hname, if_pos hname]
    · rw [if_neg hname, if_neg hname, h.getAll_eq hname]
  rw [showHeaders, showHeaders, h.names_eq, hvalues]

/-- A value that is put into both is either the same or under a sensitive name. -/
theorem insert (h : policy.SameHeaders headers headers') {name : HeaderName}
    {value value' : HeaderValue}
    (hvalue : policy.isSensitive name.text = true ∨ value = value') :
    policy.SameHeaders (headers.insert name value) (headers'.insert name value') := by
  obtain ⟨fields⟩ := headers
  obtain ⟨fields'⟩ := headers'
  dsimp only [SameHeaders] at h
  dsimp only [Headers.insert, SameHeaders]
  induction h with
  | nil => exact .cons ⟨rfl, hvalue⟩ .nil
  | @cons field field' rest rest' hfield hrest ih =>
      simp only [Headers.replaceIn, ← hfield.1]
      by_cases hthis : field.1 = name
      · rw [if_pos hthis, if_pos hthis]
        refine .cons ⟨rfl, hvalue⟩ (List.rel_filter ?_ hrest)
        intro other other' hother
        simp [hother.1]
      · rw [if_neg hthis, if_neg hthis]
        exact .cons hfield ih

end SameHeaders

theorem SamePairs.showPair_eq {pairs pairs' : Url.Pairs} (h : policy.SamePairs pairs pairs') :
    pairs.map policy.showPair = pairs'.map policy.showPair := by
  unfold SamePairs at h
  induction h with
  | nil => rfl
  | @cons pair pair' _ _ hpair _ ih =>
      have hshown : policy.showPair pair = policy.showPair pair' := by
        unfold showPair
        rw [← hpair.1]
        by_cases hname : policy.isSensitive pair.1 = true
        · rw [if_pos hname, if_pos hname]
        · rw [if_neg hname, if_neg hname, hpair.2.resolve_left hname]
      rw [List.map_cons, List.map_cons, hshown, ih]

theorem SamePairs.map_fst {pairs pairs' : Url.Pairs} (h : policy.SamePairs pairs pairs') :
    pairs.map (·.1) = pairs'.map (·.1) := by
  unfold SamePairs at h
  induction h with
  | nil => rfl
  | cons hpair _ ih => rw [List.map_cons, List.map_cons, hpair.1, ih]

theorem SameUrl.showUrl_eq {url url' : Url} (h : policy.SameUrl url url') :
    policy.showUrl url = policy.showUrl url' := by
  rcases h with rfl | ⟨hbare, hpairs, pair, hpair, hname⟩
  · rfl
  · have hany : url.pairs.any (fun pair => policy.isSensitive pair.1) = true :=
      List.any_eq_true.mpr ⟨pair, hpair, hname⟩
    have hnames : url.pairs.any (fun pair => policy.isSensitive pair.1) =
        url'.pairs.any (fun pair => policy.isSensitive pair.1) := by
      have hmap := congrArg (fun names => names.any policy.isSensitive) hpairs.map_fst
      simpa only [List.any_map, Function.comp_def] using hmap
    rw [showUrl, showUrl, if_pos hany, if_pos (hnames ▸ hany), hbare, hpairs.showPair_eq]

end RedactionPolicy

namespace Credentials

/-- Credentials of one kind that differ in their secret only, which goes under a name that the
standard policy takes for sensitive; the name of the `Authorization` header is one. -/
inductive Rekeyed : Credentials → Credentials → Prop
  | bearer (token token' : String) : Rekeyed (.bearer token) (.bearer token')
  | basic (user password password' : String) :
      Rekeyed (.basic user password) (.basic user password')
  | apiKey {header : String} (key key' : String)
      (hname : RedactionPolicy.standard.isSensitive header = true) :
      Rekeyed (.apiKey header key) (.apiKey header key')
  | apiKeyQuery {parameter : String} (key key' : String)
      (hname : RedactionPolicy.standard.isSensitive parameter = true) :
      Rekeyed (.apiKeyQuery parameter key) (.apiKeyQuery parameter key')

/-- Every request can be signed with the credentials. -/
def Accepted (credentials : Credentials) : Prop :=
  ∀ request, ∃ signed, credentials.sign request = .ok signed

variable {policy : RedactionPolicy} {request signed signed' : WireRequest}

/-- A URL has the pairs that were put into it. -/
theorem pairs_setParameter (url : Url) (parameter key : String) :
    (setParameter url parameter key).pairs =
      (url.pairs.filter fun pair => pair.1 != parameter) ++ [(parameter, key)] :=
  Url.Query.decode_encode _

theorem sameUrl_setParameter (url : Url) {parameter : String} (key key' : String)
    (hname : policy.isSensitive parameter = true) :
    policy.SameUrl (setParameter url parameter key) (setParameter url parameter key') := by
  refine .inr ⟨rfl, ?_, (parameter, key), ?_, hname⟩
  · rw [RedactionPolicy.SamePairs, pairs_setParameter, pairs_setParameter]
    refine List.rel_append ?_ (.cons ⟨rfl, .inl hname⟩ .nil)
    exact List.forall₂_same.mpr fun _ _ => ⟨rfl, .inr rfl⟩
  · rw [pairs_setParameter]
    exact List.mem_append_right _ List.mem_cons_self

theorem sameRequest_setHeader (request : WireRequest) {name : HeaderName}
    (value value' : HeaderValue) (hname : policy.isSensitive name.text = true) :
    policy.SameRequest (setHeader request name value) (setHeader request name value') where
  method := rfl
  url := .inl rfl
  headers := (RedactionPolicy.SameHeaders.refl policy request.headers).insert (.inl hname)
  body := rfl

theorem exists_value_of_map_sensitiveValue {name : HeaderName} {header value : String}
    (h : (sensitiveValue header value).map (setHeader request name) = .ok signed) :
    ∃ value, signed = setHeader request name value := by
  cases hvalue : sensitiveValue header value with
  | error e => simp [hvalue, Except.map] at h
  | ok value =>
      simp only [hvalue, Except.map, Except.ok.injEq] at h
      exact ⟨value, h.symm⟩

theorem sameRequest_authorize {value value' : String} (h : authorize request value = .ok signed)
    (h' : authorize request value' = .ok signed') :
    RedactionPolicy.standard.SameRequest signed signed' := by
  obtain ⟨value, rfl⟩ := exists_value_of_map_sensitiveValue h
  obtain ⟨value', rfl⟩ := exists_value_of_map_sensitiveValue h'
  have hname : RedactionPolicy.standard.isSensitive HeaderName.authorization.text = true := by
    decide +kernel
  exact sameRequest_setHeader request value value' hname

/-- What is signed with the one and with the other differs in the secret only. -/
theorem Rekeyed.sameRequest {credentials credentials' : Credentials}
    (hrekeyed : credentials.Rekeyed credentials') (h : credentials.sign request = .ok signed)
    (h' : credentials'.sign request = .ok signed') :
    RedactionPolicy.standard.SameRequest signed signed' := by
  cases hrekeyed with
  | bearer => exact sameRequest_authorize h h'
  | basic => exact sameRequest_authorize h h'
  | @apiKey header key key' hname =>
      cases hparse : HeaderName.parse? header with
      | none => simp [sign, hparse] at h
      | some name =>
          simp only [sign, hparse] at h h'
          obtain ⟨value, rfl⟩ := exists_value_of_map_sensitiveValue h
          obtain ⟨value', rfl⟩ := exists_value_of_map_sensitiveValue h'
          refine sameRequest_setHeader request value value' ?_
          simp only [HeaderName.parse?, Option.ite_none_right_eq_some, Option.some.injEq] at hparse
          rw [← hparse.2, RedactionPolicy.isSensitive_lowerAscii, hname]
  | apiKeyQuery key key' hname =>
      simp only [sign, Except.ok.injEq] at h h'
      subst h h'
      exact
        { method := rfl
          url := sameUrl_setParameter request.url key key' hname
          headers := .refl _ _
          body := rfl }

end Credentials
end Courier
