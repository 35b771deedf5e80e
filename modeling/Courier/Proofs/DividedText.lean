import Courier.Proofs.FaultParts
/-!
Texts in several pieces.  A comment in a text divides it, and so does a section for a part of it.
Each piece is put into the fault for itself, so only the last one is left of the text: the fault is
the same exactly if it does not depend on the text at all.
-/
namespace Courier

namespace Xml

/-! ### Character data in pieces -/

/-- The first character is not one that is trimmed. -/
def Starts (glyphs : List Glyph) : Prop :=
  ∃ g ∈ glyphs.head?, g.isBlank = false

/-- The last character is not one that is trimmed. -/
def Ends (glyphs : List Glyph) : Prop :=
  ∃ g ∈ glyphs.getLast?, g.isBlank = false

variable {front back : List Glyph}

theorem Starts.exists_cons {glyphs : List Glyph} (h : Starts glyphs) :
    ∃ g more, glyphs = g :: more ∧ g.isBlank = false := by
  obtain ⟨g, hmem, hg⟩ := h
  obtain ⟨more, rfl⟩ := List.head?_eq_some_iff.mp hmem
  exact ⟨g, more, rfl, hg⟩

theorem Ends.exists_concat {glyphs : List Glyph} (h : Ends glyphs) :
    ∃ more g, glyphs = more ++ [g] ∧ g.isBlank = false := by
  obtain ⟨g, hmem, hg⟩ := h
  obtain ⟨more, rfl⟩ := List.getLast?_eq_some_iff.mp hmem
  exact ⟨more, g, rfl, hg⟩

theorem Starts.ne_nil (h : Starts back) : back ≠ [] := by
  obtain ⟨g, more, rfl, -⟩ := h.exists_cons
  exact List.cons_ne_nil g more

theorem Ends.ne_nil (h : Ends front) : front ≠ [] := by
  obtain ⟨more, g, rfl, -⟩ := h.exists_concat
  exact List.concat_ne_nil g more

/-- Blanks in front of a character that stays are all that is taken away. -/
theorem dropWhile_concat {g : Glyph} (hg : g.isBlank = false) (glyphs : List Glyph) :
    (glyphs ++ [g]).dropWhile Glyph.isBlank = glyphs.dropWhile Glyph.isBlank ++ [g] := by
  induction glyphs with
  | nil => exact List.dropWhile_cons_of_neg (by simp [hg])
  | cons other glyphs ih =>
      rw [List.cons_append]
      by_cases hother : other.isBlank = true
      · rw [List.dropWhile_cons_of_pos hother, List.dropWhile_cons_of_pos hother, ih]
      · rw [List.dropWhile_cons_of_neg hother, List.dropWhile_cons_of_neg hother]
        rfl

theorem Ends.dropWhile (h : Ends front) : Ends (front.dropWhile Glyph.isBlank) := by
  obtain ⟨glyphs, g, rfl, hg⟩ := h.exists_concat
  exact ⟨g, by simp [dropWhile_concat hg], hg⟩

theorem Ends.dropWhile_append (h : Ends front) (more : List Glyph) :
    (front ++ more).dropWhile Glyph.isBlank = front.dropWhile Glyph.isBlank ++ more := by
  have hsome : (front.dropWhile Glyph.isBlank).isEmpty = false := by
    simpa using h.dropWhile.ne_nil
  rw [List.dropWhile_append, hsome]
  rfl

theorem dropWhile_of_starts (h : Starts back) : back.dropWhile Glyph.isBlank = back := by
  obtain ⟨g, more, rfl, hg⟩ := h.exists_cons
  exact List.dropWhile_cons_of_neg (by simp [hg])

theorem starts_reverse : Starts front.reverse ↔ Ends front := by
  rw [Starts, Ends, List.head?_reverse]

theorem ends_reverse : Ends front.reverse ↔ Starts front := by
  rw [Starts, Ends, List.getLast?_reverse]

/-- Where two pieces meet, nothing is trimmed. -/
theorem trimGlyphs_append (hfront : Ends front) (hback : Starts back) :
    trimGlyphs (front ++ back) = trimGlyphs front ++ trimGlyphs back := by
  rw [trimGlyphs, hfront.dropWhile_append, List.reverse_append,
    (ends_reverse.mpr hback).dropWhile_append, List.reverse_append, List.reverse_reverse,
    trimGlyphs, trimGlyphs, dropWhile_of_starts hback,
    dropWhile_of_starts (starts_reverse.mpr hfront.dropWhile), List.reverse_reverse]

theorem trimGlyphs_ne_nil (h : Ends front) : trimGlyphs front ≠ [] := by
  rw [trimGlyphs, dropWhile_of_starts (starts_reverse.mpr h.dropWhile), List.reverse_reverse]
  exact h.dropWhile.ne_nil

theorem trimGlyphs_ne_nil_of_starts (h : Starts back) : trimGlyphs back ≠ [] := by
  rw [trimGlyphs, dropWhile_of_starts h, ne_eq, List.reverse_eq_nil_iff]
  exact (ends_reverse.mpr h).dropWhile.ne_nil

theorem trimGlyphs_of_whole {glyphs : List Glyph} (hstarts : Starts glyphs) (hends : Ends glyphs) :
    trimGlyphs glyphs = glyphs := by
  rw [trimGlyphs, dropWhile_of_starts hstarts, dropWhile_of_starts (starts_reverse.mpr hends),
    List.reverse_reverse]

/-- Markup that divides a text: a comment or an instruction between two characters, or a section in
place of a part of the text. -/
inductive Divides (before : List Glyph) : Leaf → List Glyph → List Glyph → Prop
  | aside (a : Aside) {behind : List Glyph} (hbefore : Ends before) (hbehind : Starts behind) :
      Divides before (.aside a) [] behind
  | verbatim (data : Section) {taken behind : List Glyph}
      (htaken : taken.map Glyph.char = data.content) (hstarts : Starts taken) (hends : Ends taken)
      (hbefore : before ≠ [] → Ends before) (hbehind : behind ≠ [] → Starts behind)
      (hpart : before ≠ [] ∨ behind ≠ []) : Divides before (.cdata data) taken behind

variable {before taken behind : List Glyph} {l : Leaf}

/-- A text is trimmed at the ends of its pieces only. -/
theorem Divides.trimGlyphs_eq (h : Divides before l taken behind) :
    trimGlyphs (before ++ (taken ++ behind)) =
      trimGlyphs before ++ (taken ++ trimGlyphs behind) := by
  cases h with
  | aside a hbefore hbehind => exact trimGlyphs_append hbefore hbehind
  | verbatim data htaken hstarts hends hbefore hbehind hpart =>
      have hlast : trimGlyphs (taken ++ behind) = taken ++ trimGlyphs behind := by
        by_cases hnil : behind = []
        · subst hnil
          rw [List.append_nil, trimGlyphs_of_whole hstarts hends]
          exact (List.append_nil taken).symm
        · rw [trimGlyphs_append hends (hbehind hnil), trimGlyphs_of_whole hstarts hends]
      by_cases hnil : before = []
      · subst hnil
        exact hlast
      · have hfirst : Starts (taken ++ behind) := by
          obtain ⟨g, more, rfl, hg⟩ := hstarts.exists_cons
          exact ⟨g, rfl, hg⟩
        rw [trimGlyphs_append (hbefore hnil) hfirst, hlast]

/-! ### Places -/

/-- A place in a document, with all that is around it. -/
inductive Surroundings
  | here
  | inside (before : List Glyph) (tag : Tag) (place : Surroundings) (behind : Blanks)
      (rest : Content)
  | behindElement (before : List Glyph) (tag : Tag) (inner : Content) (behind : Blanks)
      (place : Surroundings)
  | behindLeaf (before : List Glyph) (l : Leaf) (place : Surroundings)

namespace Surroundings

/-- The document with this content at the place. -/
def fill (c : Content) : Surroundings → Content
  | here => c
  | inside before tag place behind rest => .element before tag (place.fill c) behind rest
  | behindElement before tag inner behind place => .element before tag inner behind (place.fill c)
  | behindLeaf before l place => .leaf before l (place.fill c)

/-- The local names of the elements around the place, the innermost first. -/
def path (outer : List (List Char)) : Surroundings → List (List Char)
  | here => outer
  | inside _ tag place _ _ => place.path (localName tag.name.chars :: outer)
  | behindElement _ _ _ _ place => place.path outer
  | behindLeaf _ _ place => place.path outer

end Surroundings

end Xml

namespace Soap

open Xml (Content Surroundings Divides Frame Glyph Leaf localName spell trimGlyphs)

/-- What is told in front of a place. -/
def saidFirst (outer : List (List Char)) : Surroundings → List (Part × String)
  | .here => []
  | .inside before tag place _ _ =>
      saidText outer before ++ saidFirst (localName tag.name.chars :: outer) place
  | .behindElement before tag inner _ place =>
      saidText outer before ++ (said (localName tag.name.chars :: outer) inner ++
        saidFirst outer place)
  | .behindLeaf before l place =>
      saidText outer before ++ (saidLeaf outer l ++ saidFirst outer place)

/-- What is told behind a place. -/
def saidLast (outer : List (List Char)) : Surroundings → List (Part × String)
  | .here => []
  | .inside _ tag place _ rest =>
      saidLast (localName tag.name.chars :: outer) place ++ said outer rest
  | .behindElement _ _ _ _ place => saidLast outer place
  | .behindLeaf _ _ place => saidLast outer place

/-- What is told by a content behind the character data that it begins with. -/
def saidOn (path : List (List Char)) : Content → List (Part × String)
  | .text _ => []
  | .element _ tag inner _ rest => said (localName tag.name.chars :: path) inner ++ said path rest
  | .leaf _ l rest => saidLeaf path l ++ said path rest

theorem said_fill (outer : List (List Char)) (place : Surroundings) (c : Content) :
    said outer (place.fill c) =
      saidFirst outer place ++ (said (place.path outer) c ++ saidLast outer place) := by
  induction place generalizing outer with
  | here => exact (List.append_nil _).symm
  | inside before tag place behind rest ih =>
      simp only [Surroundings.fill, Surroundings.path, said, saidFirst, saidLast, ih,
        List.append_assoc]
  | behindElement before tag inner behind place ih =>
      simp only [Surroundings.fill, Surroundings.path, said, saidFirst, saidLast, ih,
        List.append_assoc]
  | behindLeaf before l place ih =>
      simp only [Surroundings.fill, Surroundings.path, said, saidFirst, saidLast, ih,
        List.append_assoc]

theorem said_prepend (path : List (List Char)) (glyphs : List Glyph) (c : Content) :
    said path (c.prepend glyphs) = saidText path (glyphs ++ c.front) ++ saidOn path c := by
  cases c with
  | text more => exact (List.append_nil _).symm
  | element before tag inner behind rest => rfl
  | leaf before l rest => rfl

theorem said_front (path : List (List Char)) (c : Content) :
    said path c = saidText path c.front ++ saidOn path c := by
  cases c with
  | text more => exact (List.append_nil _).symm
  | element before tag inner behind rest => rfl
  | leaf before l rest => rfl

/-! ### What is left of a text -/

/-- Two texts for a part make the same fault only if they are equal or another one comes later. -/
theorem Fault.tell_set_eq_iff {fault : Fault} {part : Part} {s t : String}
    {said : List (Part × String)} :
    (fault.set part s).tell said = (fault.set part t).tell said ↔
      s = t ∨ part ∈ said.map Prod.fst := by
  by_cases hlater : part ∈ said.map Prod.fst
  · simp only [Fault.tell_set_of_mem hlater, hlater, or_true]
  · refine ⟨fun heq => ?_, ?_⟩
    · have hpart := congrArg (Fault.get · part) heq
      simp only [Fault.get_tell_of_not_mem hlater, Fault.get_set_self] at hpart
      exact .inl hpart
    · rintro (rfl | h)
      · rfl
      · exact absurd h hlater

theorem readFault_eq_some_iff {c : Content} (hmark : c.Unmarked) {fault : Fault} :
    readFault (octetsOf c) = some fault ↔
      ({} : Fault).tell (said [] c) = fault ∧ fault.speaks = true := by
  rw [readFault_octetsOf hmark, Option.filter_eq_some_iff, Option.some_inj]

section Left

variable {path : List (List Char)} {part : Part} {before taken behind : List Glyph} {l : Leaf}

theorem saidAt_of_part (hpart : partOfPath? path.reverse = some part) (cs : List Char) :
    saidAt path cs = [(part, String.ofList cs)] := by
  rw [saidAt, hpart]
  rfl

theorem saidText_of_part (hpart : partOfPath? path.reverse = some part) {glyphs : List Glyph}
    (hne : trimGlyphs glyphs ≠ []) :
    saidText path glyphs = [(part, String.ofList ((trimGlyphs glyphs).map Glyph.char))] := by
  rw [saidText, if_neg (by simpa using hne), saidAt_of_part hpart]

/-- The pieces of a divided text leave the last one of them, and this is not the whole. -/
theorem exists_left_of_divides (h : Divides before l taken behind)
    (hpart : partOfPath? path.reverse = some part) :
    ∃ left, left ≠ (trimGlyphs (before ++ (taken ++ behind))).map Glyph.char ∧
      ∀ fault : Fault, fault.tell (saidLeaf path l ++ saidText path behind) =
        fault.set part (String.ofList left) := by
  have hlength : ∀ cs ds : List Char, cs.length < ds.length → cs ≠ ds := by
    rintro cs _ hlt rfl
    exact Nat.lt_irrefl _ hlt
  rw [h.trimGlyphs_eq]
  cases h with
  | aside a hbefore hbehind =>
      have hbeforeLength := List.length_pos_of_ne_nil (Xml.trimGlyphs_ne_nil hbefore)
      refine ⟨(trimGlyphs behind).map Glyph.char, hlength _ _ ?_, fun fault => ?_⟩
      · simp only [List.length_map, List.length_append]
        omega
      · rw [saidText_of_part hpart (Xml.trimGlyphs_ne_nil_of_starts hbehind)]
        rfl
  | verbatim data htaken hstarts hends hbefore hbehind hproper =>
      have htakenLength := List.length_pos_of_ne_nil hstarts.ne_nil
      have hleaf : saidLeaf path (.cdata data) =
          [(part, String.ofList (taken.map Glyph.char))] := by
        rw [saidLeaf, saidAt_of_part hpart, htaken]
      rw [hleaf]
      by_cases hnil : behind = []
      · subst hnil
        have hbefore := hbefore (hproper.resolve_right fun h => h rfl)
        have hbeforeLength := List.length_pos_of_ne_nil (Xml.trimGlyphs_ne_nil hbefore)
        refine ⟨taken.map Glyph.char, hlength _ _ ?_, fun fault => rfl⟩
        simp only [List.length_map, List.length_append]
        omega
      · refine ⟨(trimGlyphs behind).map Glyph.char, hlength _ _ ?_, fun fault => ?_⟩
        · simp only [List.length_map, List.length_append]
          omega
        · rw [saidText_of_part hpart (Xml.trimGlyphs_ne_nil_of_starts (hbehind hnil))]
          exact Fault.set_set fault part _ _

/-- What is put into a part later makes up for a text. -/
theorem tell_saidText_set (hpart : partOfPath? path.reverse = some part) (glyphs : List Glyph)
    (fault : Fault) (s : String) :
    (fault.tell (saidText path glyphs)).set part s = fault.set part s := by
  rw [saidText]
  split
  · rfl
  · rw [saidAt_of_part hpart]
    exact Fault.set_set fault part _ s

/-- A text is told as a whole where it is not divided. -/
theorem tell_whole_of_divides (h : Divides before l taken behind)
    (hpart : partOfPath? path.reverse = some part) (fault : Fault) :
    fault.tell (saidText path (before ++ (taken ++ behind))) =
      fault.set part
        (String.ofList ((trimGlyphs (before ++ (taken ++ behind))).map Glyph.char)) := by
  have hne : trimGlyphs (before ++ (taken ++ behind)) ≠ [] := by
    rw [h.trimGlyphs_eq]
    cases h with
    | aside a hbefore hbehind =>
        exact List.append_ne_nil_of_left_ne_nil (Xml.trimGlyphs_ne_nil hbefore) _
    | verbatim data htaken hstarts hends hbefore hbehind hproper =>
        exact List.append_ne_nil_of_right_ne_nil _
          (List.append_ne_nil_of_left_ne_nil hstarts.ne_nil _)
  rw [saidText_of_part hpart hne]
  rfl

end Left

/-! ### Documents -/

/-- A document with a text in it and markup that divides the text. -/
structure Division where
  frame : Frame
  place : Surroundings
  before : List Glyph
  leaf : Leaf
  taken : List Glyph
  behind : Content
  divides : Divides before leaf taken behind.front

namespace Division

variable (d : Division) {part : Part}

/-- The document with the text in one piece. -/
def whole : Content :=
  d.frame.document (d.place.fill (d.behind.prepend (d.before ++ d.taken)))

/-- The document with the text divided, behind a first piece of it. -/
def dividedBehind (before : List Glyph) : Content :=
  d.frame.document (d.place.fill (.leaf before d.leaf d.behind))

def divided : Content :=
  d.dividedBehind d.before

/-- The local names of the elements around the text, the innermost first. -/
def path : List (List Char) :=
  d.place.path [localName d.frame.root.name.chars]

def earlier : List (Part × String) :=
  saidFirst [localName d.frame.root.name.chars] d.place

def later : List (Part × String) :=
  saidOn d.path d.behind ++ saidLast [localName d.frame.root.name.chars] d.place

theorem said_whole :
    said [] d.whole =
      d.earlier ++ (saidText d.path (d.before ++ (d.taken ++ d.behind.front)) ++ d.later) := by
  simp only [whole, earlier, later, path, said_document, said_fill, said_prepend, List.append_assoc]

theorem said_dividedBehind (before : List Glyph) :
    said [] (d.dividedBehind before) =
      d.earlier ++ (saidText d.path before ++
        ((saidLeaf d.path d.leaf ++ saidText d.path d.behind.front) ++ d.later)) := by
  rw [dividedBehind, said_document, said_fill, said, said_front]
  simp only [earlier, later, path, List.append_assoc]

/-- Where the text is no part of a fault, the pieces are none either. -/
theorem said_divided_of_none (hpath : partOfPath? d.path.reverse = none) :
    said [] d.divided = said [] d.whole := by
  rw [divided, said_dividedBehind, said_whole]
  simp only [saidText_eq_nil hpath, saidLeaf_eq_nil hpath, List.nil_append]

theorem tell_said_whole (hpart : partOfPath? d.path.reverse = some part) :
    ({} : Fault).tell (said [] d.whole) =
      ((({} : Fault).tell d.earlier).set part (String.ofList
        ((trimGlyphs (d.before ++ (d.taken ++ d.behind.front))).map Glyph.char))).tell d.later := by
  rw [said_whole, Fault.tell_append, Fault.tell_append, tell_whole_of_divides d.divides hpart]

/-- Only the last piece of the text is left, and what stands before it is of no account. -/
theorem tell_said_dividedBehind (hpart : partOfPath? d.path.reverse = some part) :
    ∃ left, left ≠ (trimGlyphs (d.before ++ (d.taken ++ d.behind.front))).map Glyph.char ∧
      ∀ before, ({} : Fault).tell (said [] (d.dividedBehind before)) =
        ((({} : Fault).tell d.earlier).set part (String.ofList left)).tell d.later := by
  obtain ⟨left, hne, htell⟩ := exists_left_of_divides d.divides hpart
  refine ⟨left, hne, fun before => ?_⟩
  rw [said_dividedBehind, Fault.tell_append, Fault.tell_append, Fault.tell_append, htell,
    tell_saidText_set hpart]

/-- Dividing a text leaves the fault of a document as it is exactly if the text is no part of the
fault, or another text takes its place later.  What stands in front of the markup that divides a text
of a part might as well not be there. -/
theorem readFault_divided {fault : Fault} (hread : readFault (octetsOf d.whole) = some fault) :
    (readFault (octetsOf d.divided) = some fault ↔
      ∀ part, partOfPath? d.path.reverse = some part → part ∈ d.later.map Prod.fst) ∧
      (partOfPath? d.path.reverse ≠ none →
        readFault (octetsOf d.divided) = readFault (octetsOf (d.dividedBehind []))) := by
  have hmark : ∀ before, (d.dividedBehind before).Unmarked := fun before =>
    d.frame.unmarked_document _
  have hwhole : ({} : Fault).tell (said [] d.whole) = fault ∧ fault.speaks = true :=
    (readFault_eq_some_iff (d.frame.unmarked_document _)).mp hread
  have hsame : readFault (octetsOf d.divided) = some fault ↔
      ({} : Fault).tell (said [] d.divided) = ({} : Fault).tell (said [] d.whole) := by
    rw [hwhole.1, divided, readFault_eq_some_iff (hmark _)]
    exact and_iff_left hwhole.2
  rw [hsame]
  cases hpath : partOfPath? d.path.reverse with
  | none =>
      rw [d.said_divided_of_none hpath]
      exact ⟨iff_of_true rfl (fun _ h => nomatch h), fun h => absurd rfl h⟩
  | some part =>
      obtain ⟨left, hne, htell⟩ := d.tell_said_dividedBehind hpath
      have hchanged : String.ofList left ≠ String.ofList
          ((trimGlyphs (d.before ++ (d.taken ++ d.behind.front))).map Glyph.char) :=
        fun h => hne (String.ofList_injective h)
      refine ⟨?_, fun _ => ?_⟩
      · rw [divided, htell, d.tell_said_whole hpath, Fault.tell_set_eq_iff, or_iff_right hchanged]
        exact ⟨fun h _ hpart => Option.some.inj hpart ▸ h, fun h => h part rfl⟩
      · rw [divided, readFault_octetsOf (hmark _), readFault_octetsOf (hmark _), htell, htell]

end Division

end Soap

end Courier

namespace Courier.DividedTextWitness

open Xml (Blanks Content Surroundings Frame Gap Glyph Name Section Tag)
open Soap (Division)

def frame : Frame :=
  ⟨.none, Tag.bare Soap.envelopeName, .none, .none⟩

/-- The place inside a code. -/
def place : Surroundings :=
  .inside [] (Tag.bare Soap.bodyName)
    (.inside [] (Tag.bare Soap.faultName)
      (.inside [] (Tag.bare Soap.faultcodeName) .here .none (.text []))
      .none (.text []))
    .none (.text [])

def glyphs (s : String) : List Glyph :=
  s.toList.map Glyph.escaped

/-- A code of four letters, with a comment in the middle. -/
def commented : Division where
  frame := frame
  place := place
  before := glyphs "ab"
  leaf := .aside (.comment " c ".toList (by decide))
  taken := []
  behind := .text (glyphs "cd")
  divides := .aside _ ⟨Glyph.escaped 'b', rfl, rfl⟩ ⟨Glyph.escaped 'c', rfl, rfl⟩

/-- The same code with a section for its second half. -/
def sectioned : Division where
  frame := frame
  place := place
  before := glyphs "ab"
  leaf := .cdata ⟨"cd".toList, by decide⟩
  taken := glyphs "cd"
  behind := .text []
  divides :=
    .verbatim _ rfl ⟨Glyph.escaped 'c', rfl, rfl⟩ ⟨Glyph.escaped 'd', rfl, rfl⟩
      (fun _ => ⟨Glyph.escaped 'b', rfl, rfl⟩) (fun h => absurd rfl h) (.inl (List.cons_ne_nil _ _))

def wholeText : String :=
  "<Envelope><Body><Fault><faultcode>abcd</faultcode></Fault></Body></Envelope>"

def commentedText : String :=
  "<Envelope><Body><Fault><faultcode>ab<!-- c -->cd</faultcode></Fault></Body></Envelope>"

def sectionedText : String :=
  "<Envelope><Body><Fault><faultcode>ab<![CDATA[cd]]></faultcode></Fault></Body></Envelope>"

theorem print_documents :
    String.ofList commented.whole.print = wholeText ∧
      String.ofList commented.divided.print = commentedText ∧
      String.ofList sectioned.divided.print = sectionedText := by
  decide +kernel

theorem readFault_wholeText :
    Soap.readFault (Octets.ofText wholeText) = some { code := "abcd" } := by
  rw [Soap.readFault_ofText (frame.unmarked_document _) print_documents.1]
  decide +kernel

/-- A comment in a code changes the fault, as nothing comes behind the code. -/
theorem readFault_commented :
    Soap.readFault (Octets.ofText wholeText) = some { code := "abcd" } ∧
      Soap.readFault (Octets.ofText commentedText) ≠ some { code := "abcd" } := by
  obtain ⟨hwhole, hdivided, -⟩ := print_documents
  have hread : Soap.readFault (Soap.octetsOf commented.whole) = some { code := "abcd" } := by
    rw [Soap.octetsOf, hwhole, readFault_wholeText]
  have hsame := (commented.readFault_divided hread).1
  rw [Soap.octetsOf, hdivided] at hsame
  refine ⟨readFault_wholeText, fun h => ?_⟩
  have hlater := hsame.mp h .code (by decide +kernel)
  exact absurd hlater (by decide +kernel)

/-- Neither a comment in a code nor a section for a part of it leaves the fault as it is. -/
theorem divided_code_is_cut :
    Soap.readFault (Octets.ofText wholeText) = some { code := "abcd" } ∧
      Soap.readFault (Octets.ofText commentedText) = some { code := "cd" } ∧
      Soap.readFault (Octets.ofText sectionedText) = some { code := "cd" } := by
  obtain ⟨-, hcommented, hsectioned⟩ := print_documents
  refine ⟨readFault_wholeText, ?_, ?_⟩
  · rw [Soap.readFault_ofText (frame.unmarked_document _) hcommented]
    decide +kernel
  · rw [Soap.readFault_ofText (frame.unmarked_document _) hsectioned]
    decide +kernel

end Courier.DividedTextWitness
