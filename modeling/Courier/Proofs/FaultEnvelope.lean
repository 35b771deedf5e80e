import Courier.Body
import Courier.Proofs.FaultParts
/-!
Envelopes that report a fault, in both versions: how the parts of a fault are laid out, in any
order, under any prefixes and with anything in a subcode.  Reading such an envelope gives the fault.
-/
namespace Courier.Soap

open Xml (Blanks Content Gap Glyph IsTrimmed Section Tag localName)

/-! ### Texts -/

/-- An element holds a text: as character data, or in one section of it that is taken as it is. -/
inductive Holds : Content → String → Prop
  | written (glyphs : List Glyph) : Holds (.text glyphs) (String.ofList (glyphs.map Glyph.char))
  | verbatim (data : Section) :
      Holds (.leaf [] (.cdata data) (.text [])) (String.ofList data.content)

/-- An element with a text, in front of other content; it can be an empty one for no text. -/
inductive Says (localPart : String) : String → Content → Content → Prop
  | element {tag : Tag} (hname : tag.IsNamed localPart) {inner : Content} {s : String}
      (h : Holds inner s) (behind : Blanks) (rest : Content) :
      Says localPart s (.element [] tag inner behind rest) rest
  | empty {tag : Tag} (hname : tag.IsNamed localPart) (rest : Content) :
      Says localPart "" (.leaf [] (.empty tag) rest) rest

/-- A text that is told as no text at all. -/
theorem set_empty {fault : Fault} {part : Part} (hget : fault.get part = "") :
    fault.set part "" = fault := by
  rw [← hget, Fault.set_get]

theorem tell_said_of_holds {path : List (List Char)} {part : Part} {inner : Content} {s : String}
    {fault : Fault} (hpath : partOfPath? path.reverse = some part) (h : Holds inner s)
    (hs : IsTrimmed s) (hget : fault.get part = "") :
    fault.tell (said path inner) = fault.set part s := by
  have hat : ∀ cs, saidAt path cs = [(part, String.ofList cs)] := by
    intro cs
    rw [saidAt, hpath]
    rfl
  cases h with
  | verbatim data =>
      have hsaid : said path (.leaf [] (.cdata data) (.text [])) =
          saidAt path data.content ++ [] := rfl
      rw [hsaid, hat]
      rfl
  | written glyphs =>
      rw [said, saidText, Xml.trimGlyphs_of_isTrimmed hs, hat]
      cases glyphs with
      | nil => exact (set_empty hget).symm
      | cons g glyphs => rfl

/-- An element at the place of a part puts its text into the fault, where nothing was so far. -/
theorem tell_said_of_says {path : List (List Char)} {part : Part} {localPart s : String}
    {c rest : Content} {fault : Fault} (h : Says localPart s c rest)
    (hcolon : ':' ∉ localPart.toList)
    (hpath : partOfPath? (localPart.toList :: path).reverse = some part) (hs : IsTrimmed s)
    (hget : fault.get part = "") :
    fault.tell (said path c) = (fault.set part s).tell (said path rest) := by
  cases h with
  | element hname h behind rest =>
      rw [said_child, hname.localName_eq hcolon, Fault.tell_append,
        tell_said_of_holds hpath h hs hget]
  | empty hname rest =>
      rw [set_empty hget]
      rfl

/-! ### Parts of a fault -/

/-- Subcodes of a code, whatever they contain. -/
inductive Subcodes : Content → Prop
  | done (gap : Gap) : Subcodes (gap.before (.text []))
  | next (gap : Gap) {tag : Tag} (hname : tag.IsNamed "Subcode") (inner : Content)
      (behind : Blanks) {rest : Content} (hrest : Subcodes rest) :
      Subcodes (gap.before (.element [] tag inner behind rest))

/-- A child of a fault gives a part of it, in front of the other children. -/
inductive Gives : SoapVersion → Part → String → Content → Content → Prop
  | faultcode {s : String} {c rest : Content} (h : Says "faultcode" s c rest) :
      Gives .v11 .code s c rest
  | faultstring {s : String} {c rest : Content} (h : Says "faultstring" s c rest) :
      Gives .v11 .reason s c rest
  | detail {s : String} {c rest : Content} (h : Says "detail" s c rest) :
      Gives .v11 .detail s c rest
  | code {tag : Tag} (hname : tag.IsNamed "Code") (gap : Gap) {s : String} {value more : Content}
      (h : Says "Value" s value more) (hmore : Subcodes more) (behind : Blanks) (rest : Content) :
      Gives .v12 .code s (.element [] tag (gap.before value) behind rest) rest
  | reason {tag : Tag} (hname : tag.IsNamed "Reason") (gap : Gap) {s : String} {text : Content}
      (last : Gap) (h : Says "Text" s text (last.before (.text []))) (behind : Blanks)
      (rest : Content) :
      Gives .v12 .reason s (.element [] tag (gap.before text) behind rest) rest

/-- The other children that a fault of the later version can have. -/
def otherChildren : List String :=
  ["Node", "Role", "Detail"]

/-- The children of a fault give parts, in their order. -/
inductive Lists (version : SoapVersion) : Content → List (Part × String) → Prop
  | nil (gap : Gap) : Lists version (gap.before (.text [])) []
  | other (hversion : version = .v12) (gap : Gap) {tag : Tag} {name : String}
      (hother : name ∈ otherChildren) (hname : tag.IsNamed name) (inner : Content)
      (behind : Blanks) {rest : Content} {parts : List (Part × String)}
      (hrest : Lists version rest parts) :
      Lists version (gap.before (.element [] tag inner behind rest)) parts
  | cons (gap : Gap) {part : Part} {s : String} {c rest : Content}
      (h : Gives version part s c rest) {parts : List (Part × String)}
      (hrest : Lists version rest parts) : Lists version (gap.before c) ((part, s) :: parts)

/-- The parts that a version has. -/
def Fault.parts (fault : Fault) : SoapVersion → List (Part × String)
  | .v11 => [(.code, fault.code), (.reason, fault.reason), (.detail, fault.detail)]
  | .v12 => [(.code, fault.code), (.reason, fault.reason)]

/-- The path inside a fault. -/
def faultPath : List (List Char) :=
  ["Fault".toList, "Body".toList, "Envelope".toList]

/-- Where no part has its place below a fault, nothing is told however deep it stands. -/
theorem said_below {below : List (List Char)} (hnone : ∀ more, partAt? (below ++ more) = none)
    (more : List (List Char)) (c : Content) :
    said (more ++ (below.reverse ++ faultPath)) c = [] := by
  have hpath : ∀ more, partOfPath? (more ++ (below.reverse ++ faultPath)).reverse = none := by
    intro more
    have hreverse : (more ++ (below.reverse ++ faultPath)).reverse =
        "Envelope".toList :: "Body".toList :: "Fault".toList :: (below ++ more.reverse) := by
      simp [faultPath]
    rw [hreverse]
    exact hnone more.reverse
  induction c generalizing more with
  | text glyphs => exact saidText_eq_nil (hpath more) glyphs
  | element before tag inner behind rest ihinner ihrest =>
      have hinner := ihinner (localName tag.name.chars :: more)
      rw [List.cons_append] at hinner
      rw [said, saidText_eq_nil (hpath more), hinner, ihrest more]
      rfl
  | leaf before l rest ih =>
      rw [said, saidText_eq_nil (hpath more), saidLeaf_eq_nil (hpath more), ih more]
      rfl

theorem partAt?_subcode (more : List (List Char)) :
    partAt? (["Code".toList, "Subcode".toList] ++ more) = none := by
  cases more with
  | nil => rfl
  | cons name more => rfl

theorem said_subcode (c : Content) :
    said ("Subcode".toList :: "Code".toList :: faultPath) c = [] :=
  said_below partAt?_subcode [] c

theorem partAt?_other {name : String} (hother : name ∈ otherChildren) (more : List (List Char)) :
    partAt? ([name.toList] ++ more) = none := by
  simp only [otherChildren, List.mem_cons, List.not_mem_nil, or_false] at hother
  rcases hother with rfl | rfl | rfl
  all_goals
    cases more with
    | nil => rfl
    | cons other more => cases more <;> rfl

theorem said_other {name : String} (hother : name ∈ otherChildren) (c : Content) :
    said (name.toList :: faultPath) c = [] :=
  said_below (partAt?_other hother) [] c

theorem colon_not_mem_other {name : String} (hother : name ∈ otherChildren) :
    ':' ∉ name.toList := by
  simp only [otherChildren, List.mem_cons, List.not_mem_nil, or_false] at hother
  rcases hother with rfl | rfl | rfl <;> decide

theorem said_subcodes {rest : Content} (h : Subcodes rest) :
    said ("Code".toList :: faultPath) rest = [] := by
  induction h with
  | done gap => exact said_gap _ gap
  | next gap hname inner behind _ ih =>
      rw [said_element, hname.localName_eq (by decide), ih]
      exact (List.append_nil _).trans (said_subcode inner)

/-- A part that is an element of its own inside a child. -/
theorem tell_said_inside {tag : Tag} {name localPart s : String} {part : Part} {gap : Gap}
    {inner more : Content} {fault : Fault} (hname : tag.IsNamed name)
    (h : Says localPart s inner more) (hmore : said (name.toList :: faultPath) more = [])
    (hcolon : ':' ∉ name.toList) (hcolon' : ':' ∉ localPart.toList)
    (hpath : partOfPath? (localPart.toList :: name.toList :: faultPath).reverse = some part)
    (hs : IsTrimmed s) (hget : fault.get part = "") (behind : Blanks) (rest : Content) :
    fault.tell (said faultPath (.element [] tag (gap.before inner) behind rest)) =
      (fault.set part s).tell (said faultPath rest) := by
  have hinner := tell_said_of_says h hcolon' hpath hs hget
  rw [hmore, Fault.tell_nil] at hinner
  rw [said_child, hname.localName_eq hcolon, said_before, Fault.tell_append, hinner]

theorem tell_said_of_gives {version : SoapVersion} {part : Part} {s : String} {c rest : Content}
    {fault : Fault} (h : Gives version part s c rest) (hs : IsTrimmed s)
    (hget : fault.get part = "") :
    fault.tell (said faultPath c) = (fault.set part s).tell (said faultPath rest) := by
  cases h with
  | faultcode h | faultstring h | detail h =>
      exact tell_said_of_says h (by decide) (by decide) hs hget
  | code hname gap h hmore behind rest =>
      exact tell_said_inside hname h (said_subcodes hmore) (by decide) (by decide) (by decide) hs
        hget behind rest
  | reason hname gap last h behind rest =>
      exact tell_said_inside hname h (said_gap _ last) (by decide) (by decide) (by decide) hs hget
        behind rest

/-- What the children of a fault tell are its parts. -/
theorem tell_said_of_lists {version : SoapVersion} {children : Content}
    {parts : List (Part × String)} {fault : Fault} (h : Lists version children parts)
    (htrimmed : ∀ p ∈ parts, IsTrimmed p.2) (hnodup : (parts.map Prod.fst).Nodup)
    (hget : ∀ p ∈ parts, fault.get p.1 = "") :
    fault.tell (said faultPath children) = fault.tell parts := by
  induction h generalizing fault with
  | nil gap => rw [said_gap]
  | other _ gap hother hname inner behind hrest ih =>
      rw [said_element, hname.localName_eq (colon_not_mem_other hother), said_other hother]
      exact ih htrimmed hnodup hget
  | @cons gap part s c rest h parts hrest ih =>
      rw [List.map_cons, List.nodup_cons] at hnodup
      rw [said_before, Fault.tell_cons,
        tell_said_of_gives h (htrimmed _ List.mem_cons_self) (hget _ List.mem_cons_self)]
      refine ih (fun p hp => htrimmed p (List.mem_cons_of_mem _ hp)) hnodup.2 fun p hp => ?_
      have hne : p.1 ≠ part := by
        rintro rfl
        exact hnodup.1 (List.mem_map.mpr ⟨p, hp, rfl⟩)
      rw [Fault.get_set_of_ne hne]
      exact hget p (List.mem_cons_of_mem _ hp)

/-! ### Envelopes -/

/-- A body that holds a fault and nothing else. -/
structure FaultBody where
  before : Gap
  tag : Tag
  children : Content
  closing : Blanks
  behind : Gap
  named : tag.IsNamed "Fault"

def FaultBody.content (b : FaultBody) : Content :=
  b.before.before (.element [] b.tag b.children b.closing (b.behind.before (.text [])))

namespace Envelope

/-- What an envelope tells: the header first, then the body and what is behind it. -/
theorem said_document (e : Envelope) (header : Option (Header × Content)) (content : Content) :
    said [] (e.document header content) =
      (header.elim [] fun h => said ["Header".toList, "Envelope".toList] h.2) ++
        (said ["Body".toList, "Envelope".toList] content ++
          said ["Envelope".toList] e.behindBody) := by
  have hroot := e.rootNamed.localName_eq (by decide)
  have hbody := e.bodyNamed.localName_eq (by decide)
  have hbodyOn : said ["Envelope".toList] (e.bodyOn content) =
      said ["Body".toList, "Envelope".toList] content ++
        said ["Envelope".toList] e.behindBody := by
    rw [bodyOn, said_element, hbody]
  cases header with
  | none => rw [document, Soap.said_document, hroot, hbodyOn]; rfl
  | some h =>
      obtain ⟨h, inner⟩ := h
      rw [document, Soap.said_document, hroot, Header.around, said_element,
        h.named.localName_eq (by decide), hbodyOn]
      rfl

theorem unmarked_document (e : Envelope) (header : Option (Header × Content))
    (content : Content) : (e.document header content).Unmarked := by
  cases header with
  | none => exact e.frame.unmarked_document _
  | some h => exact e.frame.unmarked_document _

end Envelope

theorem nodup_parts (fault : Fault) (version : SoapVersion) :
    ((fault.parts version).map Prod.fst).Nodup := by
  cases version <;> simp [Fault.parts]

theorem mem_parts (fault : Fault) (version : SoapVersion) (part : Part) :
    (part, fault.get part) ∈ fault.parts version ∨ (version = .v12 ∧ part = .detail) := by
  cases version <;> cases part <;> simp [Fault.parts, Fault.get]

/-- The parts of a fault, in any order, make the fault. -/
theorem tell_parts {version : SoapVersion} {fault : Fault} {parts : List (Part × String)}
    (hparts : parts.Perm (fault.parts version)) (hdetail : version = .v12 → fault.detail = "") :
    ({} : Fault).tell parts = fault := by
  have hkeys := hparts.map Prod.fst
  refine Fault.ext_get fun part => ?_
  rcases mem_parts fault version part with hmem | ⟨rfl, rfl⟩
  · exact Fault.get_tell_of_mem (hkeys.nodup_iff.mpr (nodup_parts fault version))
      (hparts.mem_iff.mpr hmem)
  · have hnot : Part.detail ∉ parts.map Prod.fst := by
      rw [hkeys.mem_iff]
      simp [Fault.parts]
    rw [Fault.get_tell_of_not_mem hnot]
    exact (hdetail rfl).symm

/-- Reading an envelope of either version gives the fault in its body: for all texts of the parts,
however they are written, in any order of the elements. -/
theorem readFault_envelope (e : Envelope) (header : Option (Header × Content)) (b : FaultBody)
    {version : SoapVersion} {fault : Fault} {parts : List (Part × String)}
    (hheader : ∀ h ∈ header, Silent h.2) (hbehind : Silent e.behindBody)
    (hchildren : Lists version b.children parts) (hparts : parts.Perm (fault.parts version))
    (hdetail : version = .v12 → fault.detail = "")
    (htrimmed : ∀ p ∈ parts, IsTrimmed p.2) (hspeaks : fault.code ≠ "" ∨ fault.reason ≠ "") :
    readFault (octetsOf (e.document header b.content)) = some fault := by
  have hbefore : (header.elim [] fun h => said ["Header".toList, "Envelope".toList] h.2) = [] := by
    cases header with
    | none => rfl
    | some h => exact said_of_silent (by decide) (by decide) (hheader h rfl)
  have hafter : said ["Envelope".toList] e.behindBody = [] :=
    said_of_silent (by decide) (by decide) hbehind
  have hbody : said ["Body".toList, "Envelope".toList] b.content = said faultPath b.children := by
    rw [FaultBody.content, said_element, b.named.localName_eq (by decide), said_gap,
      List.append_nil]
    rfl
  have hnodup : (parts.map Prod.fst).Nodup :=
    (hparts.map Prod.fst).nodup_iff.mpr (nodup_parts fault version)
  have htell : ({} : Fault).tell (said [] (e.document header b.content)) = fault := by
    rw [e.said_document, hbefore, hafter, List.append_nil, List.nil_append, hbody,
      tell_said_of_lists hchildren htrimmed hnodup fun p _ => by cases p.1 <;> rfl]
    exact tell_parts hparts hdetail
  have hspeaks' : fault.speaks = true := by
    rw [Fault.speaks, Bool.not_eq_true', Bool.and_eq_false_iff]
    simpa using hspeaks
  rw [readFault_octetsOf (e.unmarked_document header b.content), htell, Option.filter_some,
    if_pos hspeaks']

end Courier.Soap

namespace Courier.FaultEnvelopeWitness

open Xml (Attribute Blanks Content Frame Gap Glyph Name Section Tag)
open Soap (Envelope FaultBody Gives Holds Lists Says)

def envelope : Envelope where
  frame :=
    { front := .aside .none (.instruction "xml version='1.0'".toList (by decide))
        (.blanks .newline)
      root :=
        ⟨⟨"s:Envelope".toList, by decide, by decide⟩,
          [⟨.space, Blanks.space_ne_nil, ⟨"xmlns:s".toList, by decide, by decide⟩, .none, .none,
            .double, "urn:s>".toList, by decide⟩], .none⟩
      behind := .none
      back := Gap.none }
  beforeBody := Gap.none
  body := Tag.bare ⟨"s:Body".toList, by decide, by decide⟩
  bodyEnd := .space
  behindBody := .text []
  rootNamed := .inr ⟨['s'], by decide, rfl⟩
  bodyNamed := .inr ⟨['s'], by decide, rfl⟩

def detailTag : Tag :=
  Tag.bare ⟨"detail".toList, by decide, by decide⟩

def reasonTag : Tag :=
  Tag.bare ⟨"f:faultstring".toList, by decide, by decide⟩

def codeTag : Tag :=
  Tag.bare Soap.faultcodeName

/-- The letter `S` by its number. -/
def numbered : Glyph :=
  ⟨'S', "&#x0053;".toList,
    @Xml.Spells.byNumber 'S' .hexadecimal "0053".toList (by decide) (by decide) (by decide)⟩

def detailData : Section :=
  ⟨"a<b>]]".toList, by decide⟩

def body : FaultBody where
  before := .aside .none (.comment " f ".toList (by decide)) Gap.none
  tag := Tag.bare ⟨"s:Fault".toList, by decide, by decide⟩
  children :=
    Gap.none.before (.element [] detailTag (.leaf [] (.cdata detailData) (.text [])) .none
      (Gap.none.before (.element [] reasonTag (.text ("on & off".toList.map Glyph.escaped)) .none
        (Gap.none.before (.element [] codeTag (.text [numbered]) .none
          (Gap.none.before (.text [])))))))
  closing := .none
  behind := .blanks .newline
  named := .inr ⟨['s'], by decide, rfl⟩

def text : String :=
  "<?xml version='1.0'?>\n<s:Envelope xmlns:s=\"urn:s>\"><s:Body><!-- f --><s:Fault>" ++
    "<detail><![CDATA[a<b>]]]]></detail><f:faultstring>on &amp; off</f:faultstring>" ++
    "<faultcode>&#x0053;</faultcode></s:Fault>\n</s:Body ></s:Envelope>"

/-- Three ways to write a text, in another order than that of the parts. -/
theorem readFault_text :
    Soap.readFault (Octets.ofText text) =
      some { code := "S", reason := "on & off", detail := "a<b>]]" } := by
  have hlists : Lists .v11 body.children
      [(.detail, "a<b>]]"), (.reason, "on & off"), (.code, "S")] :=
    .cons Gap.none (.detail (.element (.inl rfl) (.verbatim detailData) .none _))
      (.cons Gap.none (.faultstring (.element (.inr ⟨['f'], by decide, rfl⟩)
          (.written ("on & off".toList.map Glyph.escaped)) .none _))
        (.cons Gap.none (.faultcode (.element (.inl rfl) (.written [numbered]) .none _))
          (.nil Gap.none)))
  have hprint : String.ofList (envelope.document none body.content).print = text := by
    decide +kernel
  have hread := @Soap.readFault_envelope envelope none body .v11
    { code := "S", reason := "on & off", detail := "a<b>]]" } _ (fun _ h => nomatch h) (.inl rfl)
    hlists (by decide) (fun h => nomatch h) (by simp [Xml.IsTrimmed, Text.isMarkupBlank])
    (.inl (by decide))
  rwa [Soap.octetsOf, hprint] at hread

end Courier.FaultEnvelopeWitness
