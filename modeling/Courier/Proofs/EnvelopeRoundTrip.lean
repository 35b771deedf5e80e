import Courier.Proofs.FlatReading
import Courier.Proofs.PayloadText
/-!
What is sent in an envelope and read from one.  The envelope around a record is cut open where its
body begins and ends, whatever the texts of the record look like, so its payload is the record again.
-/
namespace Courier.Soap

open Xml (Attribute Blanks Content FlatRecord Frame Gap Tag)

/-- The envelope that a body is put into. -/
def sentEnvelope (version : SoapVersion) : Envelope where
  frame :=
    { front :=
        .aside .none (.instruction "xml version=\"1.0\" encoding=\"UTF-8\"".toList (by decide))
          (.blanks .newline)
      root :=
        ⟨⟨"soap:Envelope".toList, by decide, by decide⟩,
          [{ before := .space
             apart := Blanks.space_ne_nil
             name := ⟨"xmlns:soap".toList, by decide, by decide⟩
             beforeSign := .none
             behindSign := .none
             quote := .double
             value := version.envelopeNamespace.toList
             closed := by cases version <;> decide }], .none⟩
      behind := .none
      back := .none }
  beforeBody := .none
  body := Tag.bare ⟨"soap:Body".toList, by decide, by decide⟩
  bodyEnd := .none
  behindBody := .text []
  rootNamed := .inr ⟨"soap".toList, by decide, rfl⟩
  bodyNamed := .inr ⟨"soap".toList, by decide, rfl⟩

theorem opening_sentEnvelope (version : SoapVersion) :
    (sentEnvelope version).opening =
      (Body.xmlDeclaration ++ "\n<soap:Envelope xmlns:soap=\"" ++ version.envelopeNamespace ++
        "\"><soap:Body>").toList := by
  cases version <;> decide +kernel

theorem closing_sentEnvelope (version : SoapVersion) :
    (sentEnvelope version).closing = "</soap:Body></soap:Envelope>".toList := by
  cases version <;> decide +kernel

/-- Markup is put into the envelope as the content of its body. -/
theorem toList_envelope (version : SoapVersion) {inner : String} {content : Content}
    (h : content.print = inner.toList) :
    (Body.envelope version inner).toList =
      ((sentEnvelope version).document none content).print := by
  rw [Envelope.print_document, opening_sentEnvelope, closing_sentEnvelope, h, Body.envelope]
  simp only [String.toList_append, List.append_assoc]

theorem find?_sentEnvelope (version : SoapVersion) (content : Content) :
    ((sentEnvelope version).document none content).find? "Body".toList = some content := by
  have hroot : Xml.localName (sentEnvelope version).frame.root.name.chars ≠ "Body".toList := by
    rw [(sentEnvelope version).rootNamed.localName_eq (by decide)]
    decide
  rw [Envelope.document, find?_frame_document hroot, Envelope.find?_bodyOn]

/-- The payload of an envelope around markup is read from the markup. -/
theorem readPayload_envelope (version : SoapVersion) {inner : String} {content : Content}
    (h : content.print = inner.toList) (shape : Json.Shape) :
    readPayload shape (Octets.ofText (Body.envelope version inner)) =
      (Xml.readAs shape (Text.stripBy Text.isBlank inner.toList)).mapError .decode := by
  have htext : Octets.ofText (Body.envelope version inner) =
      octetsOf ((sentEnvelope version).document none content) := by
    rw [octetsOf, ← toList_envelope version h, String.ofList_toList]
  rw [htext, readPayload_octetsOf (Envelope.unmarked_document _ _ _), find?_sentEnvelope]
  simp only [Option.elim_some, h]

/-- The markup of a record begins and ends with a tag. -/
theorem stripBy_write {r : FlatRecord} {text : String} (h : Xml.write r.datum = .ok text) :
    Text.stripBy Text.isBlank text.toList = text.toList := by
  obtain ⟨name, inner, -, hprint⟩ := r.exists_tree_of_write h
  have hhead : text.toList.head? = some '<' := by
    rw [← hprint, Xml.print_recordElement, Xml.assembled]
    split <;> rfl
  have hlast : text.toList.getLast? = some '>' := by
    rw [← hprint, Xml.print_recordElement, Xml.assembled]
    split <;> simp [List.getLast?_cons]
  have hfront : text.toList.dropWhile Text.isBlank = text.toList :=
    Xml.dropWhile_of_head fun c hc => by
      rw [hhead] at hc
      cases hc
      rfl
  have hback : text.toList.reverse.dropWhile Text.isBlank = text.toList.reverse :=
    Xml.dropWhile_of_head fun c hc => by
      rw [List.head?_reverse, hlast] at hc
      cases hc
      rfl
  rw [Text.stripBy, hfront, hback, List.reverse_reverse]

/-- What a record is encoded as in an envelope of either version is read as the record, whatever the
texts in it; and it is encoded if markup allows its names and the action can be sent. -/
theorem readPayload_encode (r : FlatRecord) (version : SoapVersion) (action : Option String) :
    (∀ encoded, Body.encode (.soap r.datum version action) = .ok encoded →
        readPayload r.shape encoded.bytes = .ok r.json) ∧
      (r.Nameable → ∀ headers, Body.actionHeaders action = .ok headers →
        ∃ encoded, Body.encode (.soap r.datum version action) = .ok encoded) := by
  have hencode : ∀ text, Xml.write r.datum = .ok text →
      Body.encode (.soap r.datum version action) =
        (Body.actionHeaders action).map fun headers =>
          { bytes := Octets.ofText (Body.envelope version text)
            contentType := some version.contentType
            headers } := by
    intro text htext
    rw [Body.encode, htext]
  constructor
  · intro encoded h
    obtain ⟨text, htext, hbytes⟩ : ∃ text, Xml.write r.datum = .ok text ∧
        encoded.bytes = Octets.ofText (Body.envelope version text) := by
      cases htext : Xml.write r.datum with
      | error cause =>
          rw [Body.encode, htext] at h
          cases h
      | ok text =>
          rw [hencode text htext] at h
          cases haction : Body.actionHeaders action with
          | error cause =>
              rw [haction] at h
              cases h
          | ok headers =>
              rw [haction] at h
              cases h
              exact ⟨text, rfl, rfl⟩
    obtain ⟨name, inner, -, hprint⟩ := r.exists_tree_of_write htext
    rw [hbytes, readPayload_envelope version hprint, stripBy_write htext, r.readAs_write htext]
    rfl
  · intro hnames headers hheaders
    obtain ⟨text, htext⟩ := r.exists_write hnames
    rw [hencode text htext, hheaders]
    exact ⟨_, rfl⟩

end Courier.Soap

namespace Courier.EnvelopeRoundTripWitness

open Xml (FlatField FlatRecord FlatValue)

def tagText : String :=
  "a</soap:Body>&amp;\"<b/>]]> 'c"

theorem isTrimmed_tagText : Xml.IsTrimmed tagText :=
  @Xml.isTrimmed_of_ends tagText 'a' 'c' (by decide +kernel) (by decide +kernel) rfl rfl

def user : FlatRecord where
  name := "User"
  fields := [⟨"id", .unsigned 32 7 (by decide)⟩, ⟨"name", .text tagText isTrimmed_tagText⟩]
  named := by decide
  fieldsNamed := by simp [Xml.IsFieldName]
  distinct := by decide

theorem nameable_user : user.Nameable := by
  intro name hname
  have hnames : name ∈ ["User", "id", "name"] := hname
  simp only [List.mem_cons, List.not_mem_nil, or_false] at hnames
  rcases hnames with rfl | rfl | rfl
  · exact ⟨⟨"User".toList, by decide, by decide⟩, rfl⟩
  · exact ⟨⟨"id".toList, by decide, by decide⟩, rfl⟩
  · exact ⟨⟨"name".toList, by decide, by decide⟩, rfl⟩

/-- A text that looks like the end of the body does not end it. -/
theorem user_read_back :
    ∃ encoded, Body.encode (.soap user.datum .v11 (some "urn:get")) = .ok encoded ∧
      Soap.readPayload user.shape encoded.bytes =
        .ok (Json.ofFields [("id", .nat 7), ("name", .string tagText)]) := by
  obtain ⟨hread, hencode⟩ := Soap.readPayload_encode user .v11 (some "urn:get")
  have haction : (Body.actionHeaders (some "urn:get")).isOk = true := by
    decide +kernel
  obtain ⟨encoded, h⟩ := hencode nameable_user _ (eq_ok_of_isOk haction .empty)
  exact ⟨encoded, h, hread encoded h⟩

end Courier.EnvelopeRoundTripWitness
