import Courier.Proofs.DocumentEquality
import Courier.Redaction.Body
/-!
Documents in a log line.  What is shown of a body depends on its document alone, and not on the values
under sensitive names: documents that differ in such values only, whatever their size and shape, are
shown as the same text.
-/
namespace Courier

namespace Json

/-! ### Documents side by side -/

section

variable (hides : String → Bool) (leaf hidden : Json → Json → Prop)

mutual

/-- Documents with the same items and the same names down to the names that hide their values.  Such
values are related by `hidden`, and what is reached without passing one of these names by `leaf`. -/
inductive Alongside : Json → Json → Prop
  | leaf {document document' : Json} (h : leaf document document') : Alongside document document'
  | array {items items' : List Json} (h : AlongsideItems items items') :
      Alongside (.array items) (.array items')
  | object {fields fields' : List (String × Json)} (h : AlongsideFields fields fields') :
      Alongside (.object fields) (.object fields')

inductive AlongsideItems : List Json → List Json → Prop
  | nil : AlongsideItems [] []
  | cons {item item' : Json} {rest rest' : List Json} (h : Alongside item item')
      (hrest : AlongsideItems rest rest') : AlongsideItems (item :: rest) (item' :: rest')

inductive AlongsideFields : List (String × Json) → List (String × Json) → Prop
  | nil : AlongsideFields [] []
  | hidden {name : String} {value value' : Json} {rest rest' : List (String × Json)}
      (hname : hides name = true) (h : hidden value value') (hrest : AlongsideFields rest rest') :
      AlongsideFields ((name, value) :: rest) ((name, value') :: rest')
  | shown {name : String} {value value' : Json} {rest rest' : List (String × Json)}
      (hname : hides name = false) (h : Alongside value value')
      (hrest : AlongsideFields rest rest') :
      AlongsideFields ((name, value) :: rest) ((name, value') :: rest')

end

end

end Json

namespace RedactionPolicy

variable {policy : RedactionPolicy}

/-- Documents that are the same but for values under sensitive names, at any depth. -/
def SameDocument (policy : RedactionPolicy) : Json → Json → Prop :=
  Json.Alongside policy.isSensitive Eq fun _ _ => True

def SameItems (policy : RedactionPolicy) : List Json → List Json → Prop :=
  Json.AlongsideItems policy.isSensitive Eq fun _ _ => True

def SameFields (policy : RedactionPolicy) : List (String × Json) → List (String × Json) → Prop :=
  Json.AlongsideFields policy.isSensitive Eq fun _ _ => True

/-! ### Hiding values -/

mutual

theorem SameDocument.redactJson_eq {document document' : Json}
    (h : policy.SameDocument document document') :
    policy.redactJson document = policy.redactJson document' := by
  cases h with
  | leaf h => rw [h]
  | array h => rw [redactJson, redactJson, SameItems.redactItems_eq h]
  | object h => rw [redactJson, redactJson, SameFields.redactFields_eq h]

theorem SameItems.redactItems_eq {items items' : List Json} (h : policy.SameItems items items') :
    policy.redactItems items = policy.redactItems items' := by
  cases h with
  | nil => rfl
  | cons h hrest =>
      rw [redactItems, redactItems, SameDocument.redactJson_eq h, SameItems.redactItems_eq hrest]

theorem SameFields.redactFields_eq {fields fields' : List (String × Json)}
    (h : policy.SameFields fields fields') :
    policy.redactFields fields = policy.redactFields fields' := by
  cases h with
  | nil => rfl
  | hidden hname h hrest =>
      rw [redactFields, redactFields, if_pos hname, if_pos hname,
        SameFields.redactFields_eq hrest]
  | shown hname h hrest =>
      rw [redactFields, redactFields, SameDocument.redactJson_eq h,
        SameFields.redactFields_eq hrest]

end

mutual

/-- Hiding values changes no more than values under sensitive names. -/
theorem sameDocument_redactJson (policy : RedactionPolicy) (document : Json) :
    policy.SameDocument document (policy.redactJson document) := by
  cases document with
  | array items => exact .array (sameItems_redactItems policy items)
  | object fields => exact .object (sameFields_redactFields policy fields)
  | _ => exact .leaf rfl

theorem sameItems_redactItems (policy : RedactionPolicy) (items : List Json) :
    policy.SameItems items (policy.redactItems items) := by
  cases items with
  | nil => exact .nil
  | cons item rest =>
      exact .cons (sameDocument_redactJson policy item) (sameItems_redactItems policy rest)

theorem sameFields_redactFields (policy : RedactionPolicy) (fields : List (String × Json)) :
    policy.SameFields fields (policy.redactFields fields) := by
  cases fields with
  | nil => exact .nil
  | cons field rest =>
      have hrest := sameFields_redactFields policy rest
      cases hname : policy.isSensitive field.1 with
      | true => exact .hidden hname trivial hrest
      | false =>
          rw [redactFields, hname]
          exact .shown hname (sameDocument_redactJson policy field.2) hrest

end

theorem redactJson_redactJson (policy : RedactionPolicy) (document : Json) :
    policy.redactJson (policy.redactJson document) = policy.redactJson document :=
  (sameDocument_redactJson policy document).redactJson_eq.symm

/-! ### Counting long strings -/

mutual

/-- Long strings are counted before values are hidden, which keeps documents the same. -/
theorem SameDocument.shortenJson {document document' : Json} (limits : LogLimits)
    (h : policy.SameDocument document document') :
    policy.SameDocument (limits.shortenJson document) (limits.shortenJson document') := by
  cases h with
  | leaf h =>
      rw [h]
      exact .leaf rfl
  | array h => exact .array (SameItems.shortenItems limits h)
  | object h => exact .object (SameFields.shortenFields limits h)

theorem SameItems.shortenItems {items items' : List Json} (limits : LogLimits)
    (h : policy.SameItems items items') :
    policy.SameItems (limits.shortenItems items) (limits.shortenItems items') := by
  cases h with
  | nil => exact .nil
  | cons h hrest =>
      exact .cons (SameDocument.shortenJson limits h) (SameItems.shortenItems limits hrest)

theorem SameFields.shortenFields {fields fields' : List (String × Json)} (limits : LogLimits)
    (h : policy.SameFields fields fields') :
    policy.SameFields (limits.shortenFields fields) (limits.shortenFields fields') := by
  cases h with
  | nil => exact .nil
  | hidden hname h hrest => exact .hidden hname trivial (SameFields.shortenFields limits hrest)
  | shown hname h hrest =>
      exact .shown hname (SameDocument.shortenJson limits h)
        (SameFields.shortenFields limits hrest)

end

end RedactionPolicy

namespace LogLimits

variable {limits : LogLimits} {policy : RedactionPolicy} {document shown : Json}

/-- A document without items and fields, and how it is shown where it is not hidden. -/
inductive ShowsLeaf (limits : LogLimits) : Json → Json → Prop
  | null : ShowsLeaf limits .null .null
  | bool (b : Bool) : ShowsLeaf limits (.bool b) (.bool b)
  | number (n : Json.Number) : ShowsLeaf limits (.number n) (.number n)
  | short {s : String} (h : s.utf8ByteSize ≤ limits.string) :
      ShowsLeaf limits (.string s) (.string s)
  | long {s : String} (h : limits.string < s.utf8ByteSize) :
      ShowsLeaf limits (.string s) (.string s!"[string: {byteCount s.utf8ByteSize} truncated]")

/-- A document and the one that is shown of it: where no sensitive name has been passed, the value
under a sensitive name is the mask, a long string is its size, and all else is as it was. -/
def Shows (limits : LogLimits) (policy : RedactionPolicy) : Json → Json → Prop :=
  Json.Alongside policy.isSensitive limits.ShowsLeaf fun _ shown =>
    shown = .string Redaction.redacted

def ShowsItems (limits : LogLimits) (policy : RedactionPolicy) : List Json → List Json → Prop :=
  Json.AlongsideItems policy.isSensitive limits.ShowsLeaf fun _ shown =>
    shown = .string Redaction.redacted

def ShowsFields (limits : LogLimits) (policy : RedactionPolicy) :
    List (String × Json) → List (String × Json) → Prop :=
  Json.AlongsideFields policy.isSensitive limits.ShowsLeaf fun _ shown =>
    shown = .string Redaction.redacted

theorem ShowsLeaf.eq (h : limits.ShowsLeaf document shown) :
    shown = policy.redactJson (limits.shortenJson document) := by
  cases h with
  | @short s h =>
      have hshort : limits.shorten s = s := if_neg (Nat.not_lt.mpr h)
      simp only [shortenJson, RedactionPolicy.redactJson, hshort]
  | @long s h =>
      have hlong : limits.shorten s = s!"[string: {byteCount s.utf8ByteSize} truncated]" := if_pos h
      simp only [shortenJson, RedactionPolicy.redactJson, hlong]
  | _ => rfl

mutual

theorem Shows.eq {document shown : Json} (h : limits.Shows policy document shown) :
    shown = policy.redactJson (limits.shortenJson document) := by
  cases h with
  | leaf h => exact h.eq
  | array h => rw [shortenJson, RedactionPolicy.redactJson, ShowsItems.eq h]
  | object h => rw [shortenJson, RedactionPolicy.redactJson, ShowsFields.eq h]

theorem ShowsItems.eq {items shown : List Json} (h : limits.ShowsItems policy items shown) :
    shown = policy.redactItems (limits.shortenItems items) := by
  cases h with
  | nil => rfl
  | cons h hrest =>
      rw [shortenItems, RedactionPolicy.redactItems, Shows.eq h, ShowsItems.eq hrest]

theorem ShowsFields.eq {fields shown : List (String × Json)}
    (h : limits.ShowsFields policy fields shown) :
    shown = policy.redactFields (limits.shortenFields fields) := by
  cases h with
  | nil => rfl
  | hidden hname h hrest =>
      rw [shortenFields, RedactionPolicy.redactFields, if_pos hname, h, ShowsFields.eq hrest]
  | shown hname h hrest =>
      rw [shortenFields, RedactionPolicy.redactFields, hname, Shows.eq h, ShowsFields.eq hrest]
      rfl

end

theorem showsLeaf_shorten (limits : LogLimits) (s : String) :
    limits.ShowsLeaf (.string s) (.string (limits.shorten s)) := by
  by_cases hlong : limits.string < s.utf8ByteSize
  · rw [shorten, if_pos hlong]
    exact .long hlong
  · rw [shorten, if_neg hlong]
    exact .short (Nat.not_lt.mp hlong)

mutual

theorem shows_redactJson (limits : LogLimits) (policy : RedactionPolicy) (document : Json) :
    limits.Shows policy document (policy.redactJson (limits.shortenJson document)) := by
  cases document with
  | null => exact .leaf .null
  | bool b => exact .leaf (.bool b)
  | number n => exact .leaf (.number n)
  | string s =>
      simp only [shortenJson, RedactionPolicy.redactJson]
      exact .leaf (showsLeaf_shorten limits s)
  | array items => exact .array (showsItems_redactItems limits policy items)
  | object fields => exact .object (showsFields_redactFields limits policy fields)

theorem showsItems_redactItems (limits : LogLimits) (policy : RedactionPolicy)
    (items : List Json) :
    limits.ShowsItems policy items (policy.redactItems (limits.shortenItems items)) := by
  cases items with
  | nil => exact .nil
  | cons item rest =>
      exact .cons (shows_redactJson limits policy item) (showsItems_redactItems limits policy rest)

theorem showsFields_redactFields (limits : LogLimits) (policy : RedactionPolicy)
    (fields : List (String × Json)) :
    limits.ShowsFields policy fields (policy.redactFields (limits.shortenFields fields)) := by
  cases fields with
  | nil => exact .nil
  | cons field rest =>
      have hrest := showsFields_redactFields limits policy rest
      cases hname : policy.isSensitive field.1 with
      | true =>
          rw [shortenFields, RedactionPolicy.redactFields, if_pos hname]
          exact .hidden hname rfl hrest
      | false =>
          rw [shortenFields, RedactionPolicy.redactFields, hname]
          exact .shown hname (shows_redactJson limits policy field.2) hrest

end

/-- Of each document one document is shown. -/
theorem shows_iff : limits.Shows policy document shown ↔
    shown = policy.redactJson (limits.shortenJson document) :=
  ⟨Shows.eq, fun h => h ▸ shows_redactJson limits policy document⟩

/-! ### Bodies -/

/-- The body is a document that is small enough to be shown. -/
structure Holds (limits : LogLimits) (body : Octets) (document : Json) : Prop where
  nonempty : body ≠ []
  fits : body.length ≤ limits.body
  read : Json.read body = .ok document

theorem Holds.showBody_eq {body : Octets} {contentType : String} (h : limits.Holds body document)
    (htext : isBinaryType contentType = false)
    (hjson : Text.contains (Text.lowerAscii contentType) "json" = true) :
    limits.showBody policy contentType body =
      some (policy.redactJson (limits.shortenJson document)).compact := by
  have hempty : body.isEmpty = false := List.isEmpty_eq_false_iff.mpr h.nonempty
  simp only [showBody, hempty, htext, Nat.not_lt.mpr h.fits, hjson, h.read, Bool.false_eq_true,
    if_false, if_true]

/-- Under a content type of documents that is not binary, a body that is a document is shown as the
compact text of the one document that the document shows; bodies whose documents are the same but for
values under sensitive names are shown as the same text.  Hiding values twice is hiding them once. -/
theorem showBody_hides_values (limits : LogLimits) (policy : RedactionPolicy) {contentType : String}
    (htext : isBinaryType contentType = false)
    (hjson : Text.contains (Text.lowerAscii contentType) "json" = true) :
    (∀ body document, limits.Holds body document →
      ∃ shown, limits.showBody policy contentType body = some shown.compact ∧
        ∀ other, limits.Shows policy document other ↔ other = shown) ∧
    (∀ body body' document document', limits.Holds body document → limits.Holds body' document' →
      policy.SameDocument document document' →
        limits.showBody policy contentType body = limits.showBody policy contentType body') ∧
    (∀ document, policy.redactJson (policy.redactJson document) = policy.redactJson document) := by
  refine ⟨?_, ?_, policy.redactJson_redactJson⟩
  · intro body document hbody
    exact ⟨_, hbody.showBody_eq htext hjson, fun _ => shows_iff⟩
  · intro body body' document document' hbody hbody' hsame
    have hshown := (hsame.shortenJson limits).redactJson_eq
    rw [hbody.showBody_eq htext hjson, hbody'.showBody_eq htext hjson, hshown]

end LogLimits

namespace HiddenDocumentWitness

def limits : LogLimits := { body := 100, string := 8 }

def contentType : String := "application/problem+JSON; charset=utf-8"

/-- A document with a value under a sensitive name, in an object in an array. -/
def document (password note : Json) : Json :=
  .object [("login", .array [.object [("Password", password), ("user", .string "ada")]]),
    ("note", note), ("ok", .bool true)]

def note : Json := .string "0123456789"

def short : Json := .string "s3cr3t"

/-- A longer one, which has a field and a long string of its own. -/
def nested : Json := .object [("key", .array [.string "0123456789"])]

def body (password : Json) : Octets :=
  Octets.ofText (document password note).compact

def shown : Json := document (.string "[REDACTED]") (.string "[string: 10B truncated]")

theorem alongside_document {leaf hidden : Json → Json → Prop} {password password' note note' : Json}
    (hpassword : hidden password password') (huser : leaf (.string "ada") (.string "ada"))
    (hnote : leaf note note') (hok : leaf (.bool true) (.bool true)) :
    Json.Alongside RedactionPolicy.standard.isSensitive leaf hidden (document password note)
      (document password' note') := by
  have hlogin : RedactionPolicy.standard.isSensitive "login" = false := by decide +kernel
  have hname : RedactionPolicy.standard.isSensitive "Password" = true := by decide +kernel
  have hother : RedactionPolicy.standard.isSensitive "user" = false := by decide +kernel
  have hnote' : RedactionPolicy.standard.isSensitive "note" = false := by decide +kernel
  have hok' : RedactionPolicy.standard.isSensitive "ok" = false := by decide +kernel
  refine .object (.shown hlogin (.array (.cons (.object ?_) .nil)) ?_)
  · exact .hidden hname hpassword (.shown hother (.leaf huser) .nil)
  · exact .shown hnote' (.leaf hnote) (.shown hok' (.leaf hok) .nil)

theorem holds_of_toOption {octets : Octets} {read : Json} (hne : octets ≠ [])
    (hfits : octets.length ≤ 100) (hread : (Json.read octets).toOption = some read) :
    limits.Holds octets read := by
  refine ⟨hne, hfits, ?_⟩
  cases h : Json.read octets with
  | error e => simp [h, Except.toOption] at hread
  | ok found =>
      simp only [h, Except.toOption, Option.some.injEq] at hread
      rw [hread]

/-- With the one password and with the other the same text is shown. -/
theorem same_text_for_other_password :
    LogLimits.isBinaryType contentType = false ∧
      Text.contains (Text.lowerAscii contentType) "json" = true ∧
      limits.Holds (body short) (document short note) ∧
      limits.Holds (body nested) (document nested note) ∧
      RedactionPolicy.standard.SameDocument (document short note) (document nested note) ∧
      limits.showBody .standard contentType (body short) = some shown.compact ∧
      limits.showBody .standard contentType (body nested) = some shown.compact := by
  have htext : LogLimits.isBinaryType contentType = false := by decide +kernel
  have hjson : Text.contains (Text.lowerAscii contentType) "json" = true := by decide +kernel
  have hshort : limits.Holds (body short) (document short note) :=
    holds_of_toOption (by decide +kernel) (by decide +kernel) (by decide +kernel)
  have hnested : limits.Holds (body nested) (document nested note) :=
    holds_of_toOption (by decide +kernel) (by decide +kernel) (by decide +kernel)
  have hsame : RedactionPolicy.standard.SameDocument (document short note) (document nested note) :=
    alongside_document trivial rfl rfl rfl
  have hshows : limits.Shows .standard (document short note) shown :=
    alongside_document rfl (.short (by decide)) (.long (by decide)) (.bool true)
  obtain ⟨hshown, htwo, -⟩ := LogLimits.showBody_hides_values limits .standard htext hjson
  obtain ⟨found, hfound, hunique⟩ := hshown _ _ hshort
  obtain rfl := (hunique shown).mp hshows
  refine ⟨htext, hjson, hshort, hnested, hsame, hfound, ?_⟩
  rw [← htwo _ _ _ _ hshort hnested hsame, hfound]

end HiddenDocumentWitness
end Courier
