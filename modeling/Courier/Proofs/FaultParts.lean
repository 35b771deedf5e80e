import Courier.Proofs.EnvelopeTree
import Courier.Proofs.FaultReading
/-!
The texts of a document that a fault is made of.  Each text at the place of a part is put into the
fault in turn, so the last one at each place stays; a document in which no element is named as the
place wants has none.
-/
namespace Courier

namespace Text

/-- What occurs in a text is an infix of it. -/
theorem occursIn_iff {α : Type} [BEq α] [LawfulBEq α] {needle hay : List α} :
    occursIn needle hay = true ↔ needle <:+: hay := by
  induction hay with
  | nil => rw [occursIn, List.isEmpty_iff, List.infix_nil]
  | cons a hay ih =>
      rw [occursIn, Bool.or_eq_true, List.isPrefixOf_iff_prefix, ih, List.infix_cons_iff]

end Text

namespace Soap

open Xml (Blanks Content Frame Gap Glyph Leaf localName spell Tag trimGlyphs)

/-! ### Faults -/

/-- The text of a part. -/
def Fault.get (fault : Fault) : Part → String
  | .code => fault.code
  | .reason => fault.reason
  | .detail => fault.detail

/-- A fault into which texts are put, one after the other. -/
def Fault.tell (fault : Fault) (said : List (Part × String)) : Fault :=
  said.foldl (fun fault s => fault.set s.1 s.2) fault

namespace Fault

variable {fault other : Fault} {part : Part} {said : List (Part × String)}

theorem ext_get (h : ∀ part, fault.get part = other.get part) : fault = other := by
  obtain ⟨code, reason, detail⟩ := fault
  obtain ⟨code', reason', detail'⟩ := other
  have hcode : code = code' := h .code
  have hreason : reason = reason' := h .reason
  have hdetail : detail = detail' := h .detail
  rw [hcode, hreason, hdetail]

@[simp] theorem get_set_self (fault : Fault) (part : Part) (s : String) :
    (fault.set part s).get part = s := by
  cases part <;> rfl

theorem get_set_of_ne {part other : Part} (h : other ≠ part) (fault : Fault) (s : String) :
    (fault.set part s).get other = fault.get other := by
  cases part <;> cases other <;> first | rfl | exact absurd rfl h

@[simp] theorem set_set (fault : Fault) (part : Part) (s t : String) :
    (fault.set part s).set part t = fault.set part t := by
  cases part <;> rfl

theorem set_get (fault : Fault) (part : Part) : fault.set part (fault.get part) = fault := by
  cases part <;> rfl

@[simp] theorem tell_nil (fault : Fault) : fault.tell [] = fault := rfl

@[simp] theorem tell_cons (fault : Fault) (s : Part × String) (said : List (Part × String)) :
    fault.tell (s :: said) = (fault.set s.1 s.2).tell said := rfl

theorem tell_append (fault : Fault) (said more : List (Part × String)) :
    fault.tell (said ++ more) = (fault.tell said).tell more :=
  List.foldl_append

/-- A part of which nothing is said stays as it is. -/
theorem get_tell_of_not_mem (h : part ∉ said.map Prod.fst) :
    (fault.tell said).get part = fault.get part := by
  induction said generalizing fault with
  | nil => rfl
  | cons s said ih =>
      rw [List.map_cons, List.mem_cons, not_or] at h
      rw [tell_cons, ih h.2, get_set_of_ne h.1]

/-- What is said of a part once stands in the fault. -/
theorem get_tell_of_mem {s : String} (hnodup : (said.map Prod.fst).Nodup) (h : (part, s) ∈ said) :
    (fault.tell said).get part = s := by
  induction said generalizing fault with
  | nil => cases h
  | cons t said ih =>
      rw [List.map_cons, List.nodup_cons] at hnodup
      rw [tell_cons]
      rcases List.mem_cons.mp h with rfl | h
      · rw [get_tell_of_not_mem hnodup.1, get_set_self]
      · exact ih hnodup.2 h

/-- A text is of no account when another one is said of its part later. -/
theorem tell_set_of_mem (h : part ∈ said.map Prod.fst) (s : String) :
    (fault.set part s).tell said = fault.tell said := by
  induction said generalizing fault with
  | nil => cases h
  | cons t said ih =>
      rw [tell_cons, tell_cons]
      by_cases ht : t.1 = part
      · rw [ht, set_set]
      · have hlater : part ∈ said.map Prod.fst := by
          simpa [Ne.symm ht] using h
        have hswap : (fault.set part s).set t.1 t.2 = (fault.set t.1 t.2).set part s := by
          refine ext_get fun p => ?_
          by_cases hp : p = part
          · subst hp
            rw [get_set_of_ne (Ne.symm ht), get_set_self, get_set_self]
          · by_cases hq : p = t.1
            · subst hq
              rw [get_set_self, get_set_of_ne hp, get_set_self]
            · rw [get_set_of_ne hq, get_set_of_ne hp, get_set_of_ne hp, get_set_of_ne hq]
        rw [hswap, ih hlater]

end Fault

/-! ### Texts at places -/

/-- A text as it is told, if its path is that of a part. -/
def saidAt (path : List (List Char)) (cs : List Char) : List (Part × String) :=
  ((partOfPath? path.reverse).map fun part => (part, String.ofList cs)).toList

/-- Character data is told without the blanks at its ends, unless there is nothing else. -/
def saidText (path : List (List Char)) (glyphs : List Glyph) : List (Part × String) :=
  if (trimGlyphs glyphs).isEmpty then [] else saidAt path ((trimGlyphs glyphs).map Glyph.char)

def saidLeaf (path : List (List Char)) : Leaf → List (Part × String)
  | .cdata data => saidAt path data.content
  | .empty _ | .aside _ => []

/-- The texts at the places of parts, in order; `path` holds the local names of the elements around,
the innermost first. -/
def said (path : List (List Char)) : Content → List (Part × String)
  | .text glyphs => saidText path glyphs
  | .element before tag inner _ rest =>
      saidText path before ++ (said (localName tag.name.chars :: path) inner ++ said path rest)
  | .leaf before l rest => saidText path before ++ (saidLeaf path l ++ said path rest)

theorem place_eq (path : List (List Char)) (fault : Fault) (cs : List Char) :
    collect.place path fault cs = fault.tell (saidAt path cs) := by
  rw [collect.place, saidAt]
  cases partOfPath? path.reverse <;> rfl

variable (path : List (List Char)) (fault : Fault) (more : List Xml.Event)

theorem collect_textTokens (position : Nat) (glyphs : List Glyph) :
    collect path fault ((Xml.textTokens position glyphs).map Xml.Token.event ++ more) =
      collect path (fault.tell (saidText path glyphs)) more := by
  have htrim : trimText (spell glyphs) = spell (trimGlyphs glyphs) := Xml.stripBy_spell glyphs
  rw [Xml.textTokens, saidText, Xml.isEmpty_spell]
  cases glyphs with
  | nil => rfl
  | cons g glyphs =>
      rw [if_neg (by simp : ¬ (g :: glyphs).isEmpty = true), List.map_singleton,
        List.singleton_append, collect]
      simp only [htrim, Xml.isEmpty_spell]
      by_cases hkept : (trimGlyphs (g :: glyphs)).isEmpty = true
      · rw [if_pos hkept, if_pos hkept, Fault.tell_nil]
      · rw [if_neg hkept, if_neg hkept, Xml.unescape_spell]
        simp only [place_eq]

theorem collect_leaf (l : Leaf) :
    collect path fault (l.event :: more) = collect path (fault.tell (saidLeaf path l)) more := by
  cases l with
  | empty tag => rfl
  | cdata data => rw [Leaf.event, collect, place_eq]; rfl
  | aside a => rfl

/-- Going through a document puts its texts into the fault. -/
theorem collect_tokens (c : Content) (position : Nat) :
    collect path fault ((c.tokens position).map Xml.Token.event ++ more) =
      collect path (fault.tell (said path c)) more := by
  induction c generalizing path fault more position with
  | text glyphs => exact collect_textTokens path fault more position glyphs
  | element before tag inner behind rest ihinner ihrest =>
      rw [said, Fault.tell_append, Fault.tell_append]
      simp only [Content.tokens, List.map_append, List.map_cons, List.append_assoc,
        List.cons_append]
      rw [collect_textTokens, collect, ihinner, collect, List.tail_cons, ihrest]
  | leaf before l rest ih =>
      rw [said, Fault.tell_append, Fault.tell_append]
      simp only [Content.tokens, List.map_append, List.map_cons, List.append_assoc,
        List.cons_append]
      rw [collect_textTokens, collect_leaf, ih]

/-! ### Gaps and envelopes -/

theorem trimGlyphs_blanks_append (b : Blanks) (glyphs : List Glyph) :
    trimGlyphs (b.glyphs ++ glyphs) = trimGlyphs glyphs := by
  rw [trimGlyphs, List.dropWhile_append_of_pos fun g hg => Xml.isBlank_of_mem_glyphs hg]
  rfl

theorem said_prepend_blanks (path : List (List Char)) (b : Blanks) (c : Content) :
    said path (c.prepend b.glyphs) = said path c := by
  cases c <;> simp only [Content.prepend, said, saidText, trimGlyphs_blanks_append]

theorem saidText_blanks (path : List (List Char)) (b : Blanks) : saidText path b.glyphs = [] := by
  have h := trimGlyphs_blanks_append b []
  rw [List.append_nil] at h
  rw [saidText, h]
  rfl

/-- Nothing is told between elements. -/
theorem said_before (path : List (List Char)) (gap : Gap) (c : Content) :
    said path (gap.before c) = said path c := by
  induction gap with
  | blanks b => exact said_prepend_blanks path b c
  | aside b a rest ih =>
      rw [Gap.before, said, saidText_blanks, ih]
      rfl

theorem said_gap (path : List (List Char)) (gap : Gap) : said path (gap.before (.text [])) = [] :=
  said_before path gap _

theorem said_child (path : List (List Char)) (tag : Tag) (inner : Content) (behind : Blanks)
    (rest : Content) :
    said path (.element [] tag inner behind rest) =
      said (localName tag.name.chars :: path) inner ++ said path rest :=
  rfl

theorem said_element (path : List (List Char)) (gap : Gap) (tag : Tag) (inner : Content)
    (behind : Blanks) (rest : Content) :
    said path (gap.before (.element [] tag inner behind rest)) =
      said (localName tag.name.chars :: path) inner ++ said path rest := by
  rw [said_before, said_child]

theorem said_document (path : List (List Char)) (f : Frame) (inner : Content) :
    said path (f.document inner) = said (localName f.root.name.chars :: path) inner := by
  rw [Frame.document, said_element, said_gap, List.append_nil]

/-! ### Documents -/

/-- The place of a part is inside a `Fault`, and this is inside a `Body`. -/
theorem mem_of_partOfPath? {path : List (List Char)} (h : partOfPath? path ≠ none) :
    "Fault".toList ∈ path ∧ "Body".toList ∈ path := by
  unfold partOfPath? at h
  simp only at h
  split at h
  · exact absurd rfl h
  · rename_i name below hdrop
    split at h
    · rename_i hlast
      have hfault : "Fault".toList ∈ path := by
        by_contra hmem
        have hall : path.takeWhile (· != "Fault".toList) = path := by
          refine List.takeWhile_eq_self_iff.mpr fun other hother => ?_
          simpa using fun heq : other = "Fault".toList => hmem (heq ▸ hother)
        rw [hall, List.drop_length] at hdrop
        cases hdrop
      exact ⟨hfault, (List.takeWhile_sublist _).subset (List.mem_of_getLast? hlast)⟩
    · exact absurd rfl h

theorem saidAt_eq_nil {path : List (List Char)} (h : partOfPath? path.reverse = none)
    (cs : List Char) : saidAt path cs = [] := by
  rw [saidAt, h]
  rfl

theorem saidText_eq_nil {path : List (List Char)} (h : partOfPath? path.reverse = none)
    (glyphs : List Glyph) : saidText path glyphs = [] := by
  rw [saidText, saidAt_eq_nil h, ite_self]

theorem saidLeaf_eq_nil {path : List (List Char)} (h : partOfPath? path.reverse = none)
    (l : Leaf) : saidLeaf path l = [] := by
  cases l with
  | cdata data => exact saidAt_eq_nil h data.content
  | empty tag => rfl
  | aside a => rfl

/-- Where elements have to be named as a place wants, a document without one has no texts there. -/
theorem said_eq_nil {name : List Char}
    (hneeds : ∀ path, partOfPath? path ≠ none → name ∈ path) {path : List (List Char)}
    {c : Content} (hpath : name ∉ path) (hfind : c.find? name = none) : said path c = [] := by
  have hnone : ∀ path : List (List Char), name ∉ path → partOfPath? path.reverse = none := by
    intro path hpath
    by_contra hsome
    exact hpath (List.mem_reverse.mp (hneeds _ hsome))
  induction c generalizing path with
  | text glyphs => exact saidText_eq_nil (hnone path hpath) glyphs
  | element before tag inner behind rest ihinner ihrest =>
      rw [Content.find?] at hfind
      split at hfind
      · cases hfind
      · rename_i hname
        obtain ⟨hinner, hrest⟩ := Option.or_eq_none_iff.mp hfind
        have hbelow : name ∉ localName tag.name.chars :: path := by
          rw [List.mem_cons, not_or]
          exact ⟨Ne.symm hname, hpath⟩
        rw [said, saidText_eq_nil (hnone path hpath), ihinner hbelow hinner, ihrest hpath hrest]
        rfl
  | leaf before l rest ih =>
      rw [said, saidText_eq_nil (hnone path hpath), saidLeaf_eq_nil (hnone path hpath),
        ih hpath hfind]
      rfl

/-- No fault can stand in a document: there is no element of one of the two names that it takes. -/
def Silent (c : Content) : Prop :=
  c.find? "Fault".toList = none ∨ c.find? "Body".toList = none

theorem said_of_silent {path : List (List Char)} {c : Content} (hfault : "Fault".toList ∉ path)
    (hbody : "Body".toList ∉ path) (h : Silent c) : said path c = [] := by
  rcases h with h | h
  · exact said_eq_nil (fun _ hpart => (mem_of_partOfPath? hpart).1) hfault h
  · exact said_eq_nil (fun _ hpart => (mem_of_partOfPath? hpart).2) hbody h

def octetsOf (c : Content) : Octets :=
  Octets.ofText (String.ofList c.print)

/-- The fault of a document is what the texts at the places of parts make, unless neither a code nor
a reason is among them. -/
theorem readFault_octetsOf {c : Content} (hmark : c.Unmarked) :
    readFault (octetsOf c) = (some (({} : Fault).tell (said [] c))).filter Fault.speaks := by
  have htext : (octetsOf c).toText? = some (String.ofList c.print) := Text.Utf8.decode?_encode _
  have hscan : Xml.scan (String.ofList c.print).toList = ⟨c.tokens 0, none⟩ := by
    rw [String.toList_ofList, c.scan_print hmark]
  by_cases hword : Text.contains (String.ofList c.print) "Fault" = true
  · have hcollect := collect_tokens [] {} [] c 0
    rw [List.append_nil] at hcollect
    rw [readFault_eq htext hword (by rw [hscan]), Xml.events, hscan, hcollect]
    rfl
  · -- without the word there is no element of that name
    have hfind : c.find? "Fault".toList = none := by
      by_contra hsome
      obtain ⟨inner, hinner⟩ := Option.ne_none_iff_exists'.mp hsome
      refine hword (Text.occursIn_iff.mpr ?_)
      rw [@String.toList_ofList c.print]
      exact Content.isInfix_of_find? hinner
    have hsaid : said [] c = [] :=
      said_of_silent List.not_mem_nil List.not_mem_nil (.inl hfind)
    have hnone : readFault (octetsOf c) = none := by
      unfold readFault
      simp [htext, hword]
    rw [hnone, hsaid]
    rfl

theorem readFault_ofText {c : Content} (hmark : c.Unmarked) {text : String}
    (htext : String.ofList c.print = text) :
    readFault (Octets.ofText text) =
      (some (({} : Fault).tell (said [] c))).filter Fault.speaks := by
  rw [← htext]
  exact readFault_octetsOf hmark

end Soap
end Courier
