import Courier.Proofs.Segments
import Courier.Proofs.Veil
/-!
URLs in a log line.  A query is taken apart before it is shown, so two of them that differ in values
under sensitive names only, whichever way names and values are spelled there, are shown as one text.
-/
namespace Courier

namespace Text

variable {α : Type} [BEq α] [LawfulBEq α]

/-- The parts of a list with the separator between them are the list. -/
theorem intercalate_splitList (separator : α) (l : List α) :
    [separator].intercalate (splitList (· == separator) l) = l := by
  induction l with
  | nil => rfl
  | cons a l ih =>
      obtain ⟨part, parts, hparts⟩ :=
        List.exists_cons_of_ne_nil (splitList_ne_nil (· == separator) l)
      rw [hparts] at ih
      by_cases ha : a = separator
      · simp [splitList, hparts, ha, ih]
      · have hcons : splitList (· == separator) (a :: l) = (a :: part) :: parts := by
          simp [splitList, hparts, ha]
        rw [hcons]
        cases parts with
        | nil => simpa using ih
        | cons next parts => simpa using ih

theorem splitList_injective (separator : α) :
    Function.Injective (splitList (· == separator)) := by
  intro l l' h
  rw [← intercalate_splitList separator l, h, intercalate_splitList]

end Text

namespace Url.Query

/-- The parts of a query as they are written, between its `&`. -/
def parts (query : String) : List Octets :=
  Text.splitList (· == 0x26) (Octets.ofText query)

/-- The pairs of parts; an empty part is none. -/
def pairsOfParts (parts : List Octets) : Pairs :=
  (parts.filter fun part => !part.isEmpty).map decodePair

theorem parts_injective : Function.Injective parts := by
  intro query query' h
  have hoctets := Text.splitList_injective (0x26 : UInt8) h
  have htexts := congrArg Text.Utf8.decode? hoctets
  rw [Text.Utf8.decode?_encode, Text.Utf8.decode?_encode] at htexts
  exact Option.some.inj htexts

end Url.Query

namespace RedactionPolicy

open Url.Query (decodePair pairsOfParts)

variable {policy : RedactionPolicy} {url url' : Url}

/-- Parts of a query that are the same, or two pairs with one sensitive name. -/
def SamePart (policy : RedactionPolicy) (part part' : Octets) : Prop :=
  part = part' ∨ (part ≠ [] ∧ part' ≠ [] ∧ (decodePair part).1 = (decodePair part').1 ∧
    policy.isSensitive (decodePair part).1 = true)

/-- URLs that are the same in all but the values of parameters with sensitive names. -/
structure SameButValues (policy : RedactionPolicy) (url url' : Url) : Prop where
  rest : { url with query := none } = { url' with query := none }
  query : Option.Rel (fun query query' =>
    List.Forall₂ policy.SamePart (Url.Query.parts query) (Url.Query.parts query'))
    url.query url'.query

/-- Parts that are the same in this way have the same pairs but for hidden values, and are the same
parts if there is no sensitive name. -/
theorem samePairs_of_parts {parts parts' : List Octets}
    (h : List.Forall₂ policy.SamePart parts parts') :
    policy.SamePairs (pairsOfParts parts) (pairsOfParts parts') ∧
      (parts = parts' ∨ ∃ pair ∈ pairsOfParts parts, policy.isSensitive pair.1 = true) := by
  induction h with
  | nil => exact ⟨.nil, .inl rfl⟩
  | @cons part part' rest rest' hpart _ ih =>
      obtain ⟨hpairs, hrest⟩ := ih
      rcases hpart with rfl | ⟨hne, hne', hname, hsensitive⟩
      · cases part with
        | nil => exact ⟨hpairs, hrest.imp_left (congrArg _)⟩
        | cons octet part =>
            refine ⟨.cons ⟨rfl, .inr rfl⟩ hpairs, hrest.imp (congrArg _) ?_⟩
            rintro ⟨pair, hpair, hsensitive⟩
            exact ⟨pair, List.mem_cons_of_mem _ hpair, hsensitive⟩
      · obtain ⟨octet, part, rfl⟩ := List.exists_cons_of_ne_nil hne
        obtain ⟨octet', part', rfl⟩ := List.exists_cons_of_ne_nil hne'
        exact ⟨.cons ⟨hname, .inl hsensitive⟩ hpairs, .inr ⟨_, List.mem_cons_self, hsensitive⟩⟩

theorem SameButValues.sameUrl (h : policy.SameButValues url url') : policy.SameUrl url url' := by
  obtain ⟨scheme, authority, path, query, fragment⟩ := url
  obtain ⟨scheme', authority', path', query', fragment'⟩ := url'
  obtain ⟨hrest, hquery⟩ := h
  simp only [Url.mk.injEq] at hrest
  obtain ⟨rfl, rfl, rfl, -, rfl⟩ := hrest
  cases hquery with
  | none => exact .inl rfl
  | @some query query' hparts =>
      obtain ⟨hpairs, hsame | hsensitive⟩ := samePairs_of_parts hparts
      · rw [Url.Query.parts_injective hsame]
        exact .inl rfl
      · exact .inr ⟨rfl, hpairs, hsensitive⟩

/-- URLs that are the same in all but values under sensitive names are shown as the same text.  With
such a name in its query a URL is shown without its fragment, and each parameter in its place by its
name and its value, decoded, or by its name and the mask.  Without one it is shown as it is. -/
theorem showUrl_hides_values (policy : RedactionPolicy) (url : Url) :
    (∀ url', policy.SameButValues url url' → policy.showUrl url = policy.showUrl url') ∧
    ((∃ pair ∈ url.pairs, policy.isSensitive pair.1 = true) →
      policy.showUrl url = url.bare.toText ++ "?" ++ Text.join "&" (url.pairs.map fun pair =>
        pair.1 ++ "=" ++ if policy.isSensitive pair.1 then "[REDACTED]" else pair.2)) ∧
    ((∀ pair ∈ url.pairs, policy.isSensitive pair.1 = false) →
      policy.showUrl url = url.toText) := by
  refine ⟨fun url' h => h.sameUrl.showUrl_eq, ?_, ?_⟩
  · rintro ⟨pair, hpair, hname⟩
    have hany : url.pairs.any (fun pair => policy.isSensitive pair.1) = true :=
      List.any_eq_true.mpr ⟨pair, hpair, hname⟩
    rw [showUrl, if_pos hany]
    rfl
  · intro hnone
    have hany : ¬ url.pairs.any (fun pair => policy.isSensitive pair.1) = true := by
      simpa using hnone
    rw [showUrl, if_neg hany]

end RedactionPolicy

namespace HiddenQueryWitness

open RedactionPolicy (SamePart)

instance (policy : RedactionPolicy) (part part' : Octets) : Decidable (policy.SamePart part part') :=
  inferInstanceAs (Decidable (_ ∨ _))

def page (query : String) : Url :=
  { scheme := "https"
    authority := some { host := .domain "h" }
    path := .segments ["v1"]
    query := some query
    fragment := some "top" }

def query : String := "page=2&&%74oken=s3cr3t%26more&name=a+b"

/-- The same name in another spelling, and no value. -/
def query' : String := "page=2&&token&name=a+b"

theorem same_text_for_other_token :
    RedactionPolicy.standard.SameButValues (page query) (page query') ∧
      RedactionPolicy.standard.showUrl (page query) =
        "https://h/v1?page=2&token=[REDACTED]&name=a b" ∧
      RedactionPolicy.standard.showUrl (page query') =
        "https://h/v1?page=2&token=[REDACTED]&name=a b" := by
  have hparts : List.Forall₂ RedactionPolicy.standard.SamePart (Url.Query.parts query)
      (Url.Query.parts query') := by decide +kernel
  have hsame : RedactionPolicy.standard.SameButValues (page query) (page query') :=
    ⟨rfl, .some hparts⟩
  have hname : ∃ pair ∈ (page query).pairs,
      RedactionPolicy.standard.isSensitive pair.1 = true := by decide +kernel
  obtain ⟨htwo, hshown, -⟩ :=
    RedactionPolicy.showUrl_hides_values RedactionPolicy.standard (page query)
  have htext : RedactionPolicy.standard.showUrl (page query) =
      "https://h/v1?page=2&token=[REDACTED]&name=a b" := by
    rw [hshown hname]
    decide +kernel
  exact ⟨hsame, htext, (htwo _ hsame).symm.trans htext⟩

end HiddenQueryWitness
end Courier
