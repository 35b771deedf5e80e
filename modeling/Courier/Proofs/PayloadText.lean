import Courier.Proofs.FaultEnvelope
/-!
Where the payload of an envelope is read from.  The text cut out of a document is the content of the
first element named `Body`, at whatever depth, and a header comes before the body of its envelope: so
a header is of no account to the readers only as far as it has no elements of the names that they look
for.
-/
namespace Courier.Soap

open Xml (Blanks Content Glyph Tag Token localName spell textTokens)

/-! ### Ends of elements -/

variable (name : List Char) (depth position : Nat) (tokens : List Token)

theorem endOf_textTokens (glyphs : List Glyph) :
    endOf name depth (textTokens position glyphs ++ tokens) = endOf name depth tokens := by
  rw [textTokens]
  split <;> rfl

theorem endOf_start (other tag : List Char) (before after : Nat) :
    endOf name depth (⟨.start other tag, before, after⟩ :: tokens) =
      endOf name (if other = name then depth + 1 else depth) tokens :=
  rfl

theorem endOf_leaf (l : Xml.Leaf) (before after : Nat) :
    endOf name depth (⟨l.event, before, after⟩ :: tokens) = endOf name depth tokens := by
  cases l <;> rfl

/-- The end of an element is not inside a document, in which all elements have their ends. -/
theorem endOf_tokens (c : Content) :
    endOf name depth (c.tokens position ++ tokens) = endOf name depth tokens := by
  induction c generalizing depth position tokens with
  | text glyphs => exact endOf_textTokens name depth position tokens glyphs
  | element before tag inner behind rest ihinner ihrest =>
      simp only [Content.tokens, List.append_assoc, List.cons_append]
      rw [endOf_textTokens, endOf_start, ihinner, endOf]
      by_cases hname : tag.name.chars = name
      · simp only [if_pos hname, if_neg (Nat.succ_ne_zero depth), Nat.add_sub_cancel, ihrest]
      · simp only [if_neg hname, ihrest]
  | leaf before l rest ih =>
      simp only [Content.tokens, List.append_assoc, List.cons_append]
      rw [endOf_textTokens, endOf_leaf, ih]

/-! ### The first body -/

theorem findBody_textTokens (glyphs : List Glyph) :
    findBody (textTokens position glyphs ++ tokens) = findBody tokens := by
  rw [textTokens]
  split <;> rfl

theorem findBody_leaf (l : Xml.Leaf) (before after : Nat) :
    findBody (⟨l.event, before, after⟩ :: tokens) = findBody tokens := by
  cases l <;> rfl

theorem findBody_start {other : List Char} (hother : localName other ≠ "Body".toList)
    (tag : List Char) (before after : Nat) :
    findBody (⟨.start other tag, before, after⟩ :: tokens) = findBody tokens := by
  rw [findBody]
  exact if_neg hother

theorem findBody_body {other : List Char} (hother : localName other = "Body".toList)
    (tag : List Char) (before after : Nat) :
    findBody (⟨.start other tag, before, after⟩ :: tokens) = some (other, after, tokens) := by
  rw [findBody]
  exact if_pos hother

theorem findBody_stop (other : List Char) (before after : Nat) :
    findBody (⟨.stop other, before, after⟩ :: tokens) = findBody tokens :=
  rfl

/-- A document without a body is passed over. -/
theorem findBody_tokens_of_none {c : Content} (h : c.find? "Body".toList = none) :
    findBody (c.tokens position ++ tokens) = findBody tokens := by
  induction c generalizing position tokens with
  | text glyphs => exact findBody_textTokens position tokens glyphs
  | element before tag inner behind rest ihinner ihrest =>
      rw [Content.find?] at h
      split at h
      · cases h
      · rename_i hname
        obtain ⟨hinner, hrest⟩ := Option.or_eq_none_iff.mp h
        simp only [Content.tokens, List.append_assoc, List.cons_append]
        rw [findBody_textTokens, findBody_start _ hname, ihinner _ _ hinner, findBody_stop,
          ihrest _ _ hrest]
  | leaf before l rest ih =>
      simp only [Content.tokens, List.append_assoc, List.cons_append]
      rw [findBody_textTokens, findBody_leaf, ih _ _ h]

/-- The first body of a document is found where its content is written. -/
def FindsBody (c inner : Content) (position : Nat) (tokens : List Token) : Prop :=
  ∃ name front behind more, c.print = front ++ (inner.print ++ behind) ∧
    findBody (c.tokens position ++ tokens) = some (name, position + front.length, more) ∧
      endOf name 0 more = some (position + front.length + inner.print.length)

variable {name depth position tokens}

/-- What is found in a part of a document is found in the document, if nothing is found before. -/
theorem FindsBody.outward {c part inner : Content} {start : Nat} {more : List Token}
    (h : FindsBody part inner start more) (front behind : List Char)
    (hprint : c.print = front ++ (part.print ++ behind)) (hstart : start = position + front.length)
    (hbefore : findBody (c.tokens position ++ tokens) = findBody (part.tokens start ++ more)) :
    FindsBody c inner position tokens := by
  subst hstart
  obtain ⟨name, first, last, later, hpart, hfound, hends⟩ := h
  refine ⟨name, front ++ first, last ++ behind, later, ?_, ?_, ?_⟩
  · rw [hprint, hpart]
    simp
  · rw [hbefore, hfound, List.length_append, Nat.add_assoc]
  · rw [hends, List.length_append, Nat.add_assoc position]

section Element

variable (before : List Glyph) (tag : Tag) (inner : Content) (behind : Blanks) (rest : Content)

/-- What is written in front of the content of an element. -/
def startText : List Char :=
  spell before ++ '<' :: (tag.inside ++ ['>'])

/-- The end tag. -/
def endText : List Char :=
  '<' :: (('/' :: (tag.name.chars ++ behind.chars)) ++ ['>'])

theorem print_element :
    (Content.element before tag inner behind rest).print =
      startText before tag ++ (inner.print ++ (endText tag behind ++ rest.print)) := by
  simp [Content.print, startText, endText]

theorem tokens_element (position : Nat) (tokens : List Token) :
    (Content.element before tag inner behind rest).tokens position ++ tokens =
      textTokens position before ++
        ⟨.start tag.name.chars tag.inside, position + (spell before).length,
            position + (startText before tag).length⟩ ::
          (inner.tokens (position + (startText before tag).length) ++
            ⟨.stop tag.name.chars, position + (startText before tag).length + inner.print.length,
                position + (startText before tag ++ (inner.print ++ endText tag behind)).length⟩ ::
              (rest.tokens
                (position + (startText before tag ++ (inner.print ++ endText tag behind)).length) ++
                tokens)) := by
  have hopening : position + (spell before).length + 1 + (tag.inside.length + 1) =
      position + (startText before tag).length := by
    simp only [startText, List.length_append, List.length_cons, List.length_nil]
    omega
  have hclosing : position + (startText before tag).length + inner.print.length + 1 +
      (('/' :: (tag.name.chars ++ behind.chars)).length + 1) =
        position + (startText before tag ++ (inner.print ++ endText tag behind)).length := by
    simp only [endText, List.length_append, List.length_cons, List.length_nil]
    omega
  simp only [Content.tokens, hopening, hclosing, List.append_assoc, List.cons_append]

end Element

theorem findsBody_of_find? {c inner : Content} (h : c.find? "Body".toList = some inner) :
    FindsBody c inner position tokens := by
  induction c generalizing position tokens with
  | text glyphs => cases h
  | element before tag content behind rest ihinner ihrest =>
      have hprint := print_element before tag content behind rest
      have hskip := (congrArg findBody
        (tokens_element before tag content behind rest position tokens)).trans
          (findBody_textTokens _ _ before)
      rw [Content.find?] at h
      split at h
      · rename_i hname
        obtain rfl : content = inner := Option.some.inj h
        refine ⟨_, _, _, _, hprint, hskip.trans (findBody_body _ hname _ _ _), ?_⟩
        rw [endOf_tokens, endOf]
        simp
      · rename_i hname
        have hbefore := hskip.trans (findBody_start _ hname _ _ _)
        rcases Option.or_eq_some_iff.mp h with hinner | ⟨hnone, hrest⟩
        · exact (ihinner hinner).outward _ _ hprint rfl hbefore
        · refine (@ihrest _ tokens hrest).outward
            (startText before tag ++ (content.print ++ endText tag behind)) [] ?_ rfl
            (hbefore.trans ?_)
          · simp [hprint]
          · rw [findBody_tokens_of_none _ _ hnone, findBody_stop]
  | leaf before l rest ih =>
      refine (@ih (position + (spell before).length + 1 + (l.inside.length + 1)) tokens h).outward
        (spell before ++ '<' :: (l.inside ++ ['>'])) [] ?_ ?_ ?_
      · simp [Content.print]
      · simp only [List.length_append, List.length_cons, List.length_nil]
        omega
      · simp only [Content.tokens, List.append_assoc, List.cons_append]
        rw [findBody_textTokens, findBody_leaf]

/-! ### The text that is cut out -/

theorem cutSource_eq {c : Content} (hmark : c.Unmarked) : cutSource c.print = c.print := by
  rw [Content.Unmarked] at hmark
  cases hprint : c.print with
  | nil => rfl
  | cons d more =>
      rw [hprint, Xml.withoutMark] at hmark
      rw [cutSource]
      by_cases hd : d = Xml.byteOrderMark
      · rw [if_pos hd] at hmark
        exact absurd hmark.symm (List.cons_ne_self d more)
      · exact if_neg hd

/-- The text cut out of a document is the content of its first body. -/
theorem bodyText_print {c : Content} (hmark : c.Unmarked) :
    bodyText c.print = (c.find? "Body".toList).elim (.error .missingBody) fun inner =>
      .ok inner.print := by
  have hscan : Xml.scan c.print = ⟨c.tokens 0, none⟩ := c.scan_print hmark
  unfold bodyText
  simp only [hscan, cutSource_eq hmark]
  cases hfind : c.find? "Body".toList with
  | none =>
      have hnone := findBody_tokens_of_none 0 [] hfind
      rw [List.append_nil] at hnone
      simp only [hnone]
      rfl
  | some inner =>
      obtain ⟨name, front, behind, more, hprint, hfound, hends⟩ :=
        @findsBody_of_find? 0 [] c inner hfind
      rw [List.append_nil, Nat.zero_add] at hfound
      rw [Nat.zero_add] at hends
      simp only [hfound, hends, hprint]
      simp

/-- The payload of a document is read from the content of its first body. -/
theorem readPayload_octetsOf {c : Content} (hmark : c.Unmarked) (shape : Json.Shape) :
    readPayload shape (octetsOf c) =
      (c.find? "Body".toList).elim (.error .missingBody) fun inner =>
        (Xml.readAs shape (Text.stripBy Text.isBlank inner.print)).mapError .decode := by
  have hread : Text.Utf8.read (octetsOf c) = .ok c.print := by
    rw [octetsOf, Octets.ofText, Text.Utf8.encode, Text.Utf8.read, Text.Utf8.decodeFrom_encodeChars,
      String.toList_ofList]
    rfl
  rw [readPayload, hread]
  simp only [bodyText_print hmark]
  cases c.find? "Body".toList <;> rfl

/-! ### Headers -/

theorem find?_element {name : List Char} {tag : Tag} (hname : localName tag.name.chars ≠ name)
    (gap : Xml.Gap) (inner : Content) (behind : Blanks) (rest : Content) :
    (gap.before (.element [] tag inner behind rest)).find? name =
      (inner.find? name).or (rest.find? name) := by
  rw [Xml.Gap.find?_before, Content.find?]
  exact if_neg hname

theorem find?_frame_document {name : List Char} {f : Xml.Frame}
    (hname : localName f.root.name.chars ≠ name) (inner : Content) :
    (f.document inner).find? name = inner.find? name := by
  rw [Xml.Frame.document, find?_element hname, Xml.Gap.find?_before]
  exact Option.or_none

namespace Envelope

variable (e : Envelope) (h : Header) (content : Content)

theorem find?_bodyOn : (e.bodyOn content).find? "Body".toList = some content := by
  rw [bodyOn, Xml.Gap.find?_before, Content.find?]
  exact if_pos (e.bodyNamed.localName_eq (by decide))

/-- The first body of an envelope is in its header, or else it is its own. -/
theorem find?_document (inner : Content) :
    (e.document (some (h, content)) inner).find? "Body".toList =
      (content.find? "Body".toList).or (some inner) := by
  have hroot : localName e.frame.root.name.chars ≠ "Body".toList := by
    rw [e.rootNamed.localName_eq (by decide)]
    decide
  have hheader : localName h.tag.name.chars ≠ "Body".toList := by
    rw [h.named.localName_eq (by decide)]
    decide
  rw [document, find?_frame_document hroot, Header.around, find?_element hheader, find?_bodyOn]

end Envelope

/-- What a header does to the readers.  Contents of it that have no elements of the names that a
fault takes are read alike for the fault, and contents without a body for the payload.  But where the
header has a body, the payload is read from that; and where the body of the envelope has no fault,
the header is what a fault is read from. -/
theorem readers_of_header (e : Envelope) (h : Header) (content body : Content) :
    (∀ other, Silent content → Silent other →
        readFault (octetsOf (e.document (some (h, content)) body)) =
          readFault (octetsOf (e.document (some (h, other)) body))) ∧
      (∀ other, content.find? "Body".toList = none → other.find? "Body".toList = none →
        ∀ shape, readPayload shape (octetsOf (e.document (some (h, content)) body)) =
          readPayload shape (octetsOf (e.document (some (h, other)) body))) ∧
      (∀ inner, content.find? "Body".toList = some inner →
        ∀ shape, readPayload shape (octetsOf (e.document (some (h, content)) body)) =
          (Xml.readAs shape (Text.stripBy Text.isBlank inner.print)).mapError .decode) ∧
      (body.find? "Fault".toList = none → Silent e.behindBody →
        readFault (octetsOf (e.document (some (h, content)) body)) =
          (some (({} : Fault).tell (said ["Header".toList, "Envelope".toList] content))).filter
            Fault.speaks) := by
  have hfault : ∀ content, readFault (octetsOf (e.document (some (h, content)) body)) =
      (some (({} : Fault).tell (said ["Header".toList, "Envelope".toList] content ++
        (said ["Body".toList, "Envelope".toList] body ++
          said ["Envelope".toList] e.behindBody)))).filter Fault.speaks := fun content => by
    rw [readFault_octetsOf (e.unmarked_document _ _), e.said_document]
    rfl
  have hpayload : ∀ content shape,
      readPayload shape (octetsOf (e.document (some (h, content)) body)) =
        (Xml.readAs shape (Text.stripBy Text.isBlank
          ((content.find? "Body".toList).getD body).print)).mapError .decode := by
    intro content shape
    rw [readPayload_octetsOf (e.unmarked_document _ _), e.find?_document]
    cases content.find? "Body".toList <;> rfl
  refine ⟨?_, ?_, ?_, ?_⟩
  · intro other hcontent hother
    rw [hfault, hfault, said_of_silent (by decide) (by decide) hcontent,
      said_of_silent (by decide) (by decide) hother]
  · intro other hcontent hother shape
    rw [hpayload, hpayload, hcontent, hother]
  · intro inner hinner shape
    rw [hpayload, hinner]
    rfl
  · intro hbody hbehind
    rw [hfault, said_eq_nil (fun _ hpart => (mem_of_partOfPath? hpart).1) (by decide) hbody,
      said_of_silent (by decide) (by decide) hbehind, List.append_nil, List.append_nil]

end Courier.Soap

namespace Courier.PayloadTextWitness

open Xml (Blanks Content Frame Gap Glyph Name Tag)
open Soap (Envelope Header)

def user : Json.Shape :=
  .record "User" [("id", .unsigned 32, .refused), ("name", .text, .refused)]

/-- The payload of an envelope, as it is printed. -/
def payloadOf (text : String) : Option String :=
  (Soap.readPayload user (Octets.ofText text)).toOption.map Json.compact

def withHeader (header body : String) : String :=
  "<Envelope><Header>" ++ header ++ "</Header><Body>" ++ body ++ "</Body></Envelope>"

/-- An element with a text. -/
def leafElement (name : Name) (s : String) (rest : Content) : Content :=
  .element [] (Tag.bare name) (.text (s.toList.map Glyph.escaped)) .none rest

def userElement (id name : String) : Content :=
  .element [] (Tag.bare ⟨"User".toList, by decide, by decide⟩)
    (leafElement ⟨"id".toList, by decide, by decide⟩ id
      (leafElement ⟨"name".toList, by decide, by decide⟩ name (.text [])))
    .none (.text [])

def bodyTag : Tag :=
  Tag.bare Soap.bodyName

def envelope : Envelope where
  frame := ⟨Gap.none, Tag.bare Soap.envelopeName, .none, Gap.none⟩
  beforeBody := Gap.none
  body := bodyTag
  bodyEnd := .none
  behindBody := .text []
  rootNamed := .inl rfl
  bodyNamed := .inl rfl

def header : Header :=
  ⟨Gap.none, Tag.bare Soap.headerName, .none, .inl rfl⟩

/-- A body inside another element of a header. -/
def headerBody : Content :=
  .element [] (Tag.bare ⟨"t".toList, by decide, by decide⟩)
    (.element [] bodyTag (userElement "1" "a") .none (.text [])) .none (.text [])

def headerToken : Content :=
  leafElement ⟨"t".toList, by decide, by decide⟩ "x" (.text [])

def userText (id name : String) : String :=
  "<User><id>" ++ id ++ "</id><name>" ++ name ++ "</name></User>"

def bodyInHeader : String :=
  withHeader ("<t><Body>" ++ userText "1" "a" ++ "</Body></t>") (userText "2" "b")

def headerFault : Content :=
  .element [] (Tag.bare ⟨"t".toList, by decide, by decide⟩)
    (.element [] bodyTag
      (.element [] (Tag.bare Soap.faultName)
        (leafElement Soap.faultcodeName "X" (.text [])) .none (.text []))
      .none (.text []))
    .none (.text [])

def faultInHeader : String :=
  withHeader "<t><Body><Fault><faultcode>X</faultcode></Fault></Body></t>" (userText "2" "b")

/-- The envelope with a header. -/
def document (content : Content) : Content :=
  envelope.document (some (header, content)) (userElement "2" "b")

theorem print_document :
    String.ofList (document (.text [])).print = withHeader "" (userText "2" "b") ∧
      String.ofList (document headerBody).print = bodyInHeader ∧
      String.ofList (document headerFault).print = faultInHeader := by
  decide +kernel

theorem unmarked_document (content : Content) : (document content).Unmarked :=
  envelope.unmarked_document _ _

theorem payload_document {content inner : Content} {text : String}
    (htext : String.ofList (document content).print = text)
    (hinner : (document content).find? "Body".toList = some inner) :
    Soap.readPayload user (Octets.ofText text) =
      (Xml.readAs user (Text.stripBy Text.isBlank inner.print)).mapError .decode := by
  rw [← htext, ← Soap.octetsOf, Soap.readPayload_octetsOf (unmarked_document content), hinner]
  rfl

/-- An empty header and one with a token are read alike; with a body in it, the header is read
itself. -/
theorem payload_of_headerBody :
    Soap.readPayload user (Soap.octetsOf (document (.text []))) =
      Soap.readPayload user (Soap.octetsOf (document headerToken)) ∧
      Soap.readPayload user (Soap.octetsOf (document headerBody)) =
        (Xml.readAs user (Text.stripBy Text.isBlank (userElement "1" "a").print)).mapError
          .decode := by
  have hempty := (Soap.readers_of_header envelope header (.text []) (userElement "2" "b")).2.1
    headerToken rfl rfl user
  have hbody := (Soap.readers_of_header envelope header headerBody (userElement "2" "b")).2.2.1
    (userElement "1" "a") rfl user
  exact ⟨hempty, hbody⟩

/-- With another content of the header, the payload is another one, and a fault appears. -/
theorem header_changes_answers :
    payloadOf (withHeader "" (userText "2" "b")) =
        some "\x7b\"id\":2,\"name\":\"b\"\x7d" ∧
      payloadOf bodyInHeader = some "\x7b\"id\":1,\"name\":\"a\"\x7d" ∧
      Soap.readFault (Octets.ofText (withHeader "" (userText "2" "b"))) = none ∧
      Soap.readFault (Octets.ofText faultInHeader) = some { code := "X" } := by
  obtain ⟨hempty, hbody, hfault⟩ := print_document
  have hown : (document (.text [])).find? "Body".toList = some (userElement "2" "b") :=
    envelope.find?_document header (.text []) _
  have hheader : (document headerBody).find? "Body".toList = some (userElement "1" "a") :=
    envelope.find?_document header headerBody _
  rw [payloadOf, payloadOf, payload_document hempty hown, payload_document hbody hheader,
    Soap.readFault_ofText (unmarked_document _) hempty,
    Soap.readFault_ofText (unmarked_document _) hfault]
  decide +kernel

end Courier.PayloadTextWitness
