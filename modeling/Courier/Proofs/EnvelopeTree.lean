import Courier.Proofs.MarkupTree
/-!
Envelopes as trees: a root with an optional header and a body, under any prefixes, with white space,
comments and instructions between the elements.
-/
namespace Courier.Xml

/-! ### Between elements -/

theorem ne_sign_of_isMarkupBlank {c : Char} (hc : Text.isMarkupBlank c = true) :
    c ≠ '<' ∧ c ≠ '&' := by
  constructor <;> rintro rfl <;> cases hc

/-- White space as it stands in a text. -/
def Glyph.ofBlank (c : Char) (hc : Text.isMarkupBlank c = true) : Glyph :=
  ⟨c, [c], .itself (ne_sign_of_isMarkupBlank hc).1 (ne_sign_of_isMarkupBlank hc).2⟩

theorem isBlank_ofBlank {c : Char} (hc : Text.isMarkupBlank c = true) :
    (Glyph.ofBlank c hc).isBlank = true := by
  simp [Glyph.isBlank, Glyph.ofBlank, hc]

def Blanks.glyphs (b : Blanks) : List Glyph :=
  b.chars.pmap Glyph.ofBlank fun _ hc => b.isMarkupBlank_of_mem hc

@[simp] theorem Blanks.spell_glyphs (b : Blanks) : spell b.glyphs = b.chars := by
  have hall : ∀ (cs : List Char) (hcs : ∀ c ∈ cs, Text.isMarkupBlank c = true),
      spell (cs.pmap Glyph.ofBlank hcs) = cs := by
    intro cs hcs
    induction cs with
    | nil => rfl
    | cons c cs ih =>
        rw [List.pmap_cons, spell_cons, ih]
        rfl
  exact hall b.chars _

theorem isBlank_of_mem_glyphs {b : Blanks} {g : Glyph} (hg : g ∈ b.glyphs) : g.isBlank = true := by
  obtain ⟨c, hc, rfl⟩ := List.mem_pmap.mp hg
  exact isBlank_ofBlank _

/-- White space, with comments and instructions in it. -/
inductive Gap
  | blanks (b : Blanks)
  | aside (b : Blanks) (a : Aside) (rest : Gap)

namespace Content

/-- The character data in front of the first piece of markup. -/
def front : Content → List Glyph
  | text glyphs => glyphs
  | element before _ _ _ _ => before
  | leaf before _ _ => before

/-- A document with character data in front of it. -/
def prepend (glyphs : List Glyph) : Content → Content
  | text more => text (glyphs ++ more)
  | element before tag inner behind rest => element (glyphs ++ before) tag inner behind rest
  | leaf before l rest => leaf (glyphs ++ before) l rest

theorem print_prepend (glyphs : List Glyph) (c : Content) :
    (c.prepend glyphs).print = spell glyphs ++ c.print := by
  cases c <;> simp [prepend, print]

theorem find?_prepend (name : List Char) (glyphs : List Glyph) (c : Content) :
    (c.prepend glyphs).find? name = c.find? name := by
  cases c <;> rfl

/-- No byte order mark stands in front of a document. -/
def Unmarked (c : Content) : Prop :=
  withoutMark c.print = c.print

theorem unmarked_of_head {c : Content} (h : ∀ d ∈ c.print.head?, d ≠ byteOrderMark) :
    c.Unmarked := by
  rw [Unmarked]
  cases hprint : c.print with
  | nil => rfl
  | cons d more => exact if_neg (h d (by rw [hprint]; rfl))

end Content

namespace Gap

def none : Gap :=
  .blanks .none

/-- A document behind a gap. -/
def before : Gap → Content → Content
  | blanks b, c => c.prepend b.glyphs
  | aside b a rest, c => .leaf b.glyphs (.aside a) (rest.before c)

/-- How a gap is written. -/
def chars : Gap → List Char
  | blanks b => b.chars
  | aside b a rest => b.chars ++ '<' :: ((Leaf.aside a).inside ++ '>' :: rest.chars)

theorem print_before (gap : Gap) (c : Content) : (gap.before c).print = gap.chars ++ c.print := by
  induction gap with
  | blanks b => rw [before, Content.print_prepend, Blanks.spell_glyphs, chars]
  | aside b a rest ih =>
      rw [before, Content.print, Blanks.spell_glyphs, ih, chars]
      simp

theorem find?_before (name : List Char) (gap : Gap) (c : Content) :
    (gap.before c).find? name = c.find? name := by
  induction gap with
  | blanks b => exact c.find?_prepend name b.glyphs
  | aside b a rest ih => exact ih

theorem head_blanks_append {b : Blanks} {cs : List Char}
    (hcs : ∀ d ∈ cs.head?, d ≠ byteOrderMark) :
    ∀ d ∈ (b.chars ++ cs).head?, d ≠ byteOrderMark := by
  intro d hd
  cases hchars : b.chars with
  | nil =>
      rw [hchars] at hd
      exact hcs d hd
  | cons c more =>
      rw [hchars] at hd
      obtain rfl : c = d := Option.some.inj hd
      have hblank := b.isMarkupBlank_of_mem (hchars ▸ List.mem_cons_self)
      rintro rfl
      cases hblank

/-- A gap begins with white space or markup. -/
theorem unmarked_before (gap : Gap) {c : Content}
    (hc : ∀ d ∈ c.print.head?, d ≠ byteOrderMark) : (gap.before c).Unmarked := by
  refine Content.unmarked_of_head ?_
  cases gap with
  | blanks b =>
      rw [before, Content.print_prepend, Blanks.spell_glyphs]
      exact head_blanks_append hc
  | aside b a rest =>
      rw [before, Content.print, Blanks.spell_glyphs]
      refine head_blanks_append fun d hd => ?_
      obtain rfl : d = '<' := (Option.some.inj hd).symm
      decide

end Gap

/-! ### Names -/

/-- A tag has a local name, alone or behind a prefix. -/
def Tag.IsNamed (tag : Tag) (localPart : String) : Prop :=
  tag.name.chars = localPart.toList ∨
    ∃ space, ':' ∉ space ∧ tag.name.chars = space ++ ':' :: localPart.toList

theorem Tag.IsNamed.localName_eq {tag : Tag} {localPart : String} (h : tag.IsNamed localPart)
    (hcolon : ':' ∉ localPart.toList) : localName tag.name.chars = localPart.toList := by
  rcases h with h | ⟨space, hspace, h⟩
  · rw [localName, h, if_neg (by simpa using hcolon)]
  · have hdrop : (space ++ ':' :: localPart.toList).dropWhile (· != ':') =
        ':' :: localPart.toList := by
      rw [List.dropWhile_append_of_pos, List.dropWhile_cons_of_neg (by simp)]
      intro c hc
      simpa using fun heq : c = ':' => hspace (heq ▸ hc)
    rw [localName, h, if_pos (by simp), hdrop]
    rfl

/-! ### Documents with a root -/

/-- What stands around the content of the root. -/
structure Frame where
  front : Gap
  root : Tag
  behind : Blanks
  back : Gap

/-- A document with this content of its root. -/
def Frame.document (f : Frame) (inner : Content) : Content :=
  f.front.before (.element [] f.root inner f.behind (f.back.before (.text [])))

theorem Frame.unmarked_document (f : Frame) (inner : Content) : (f.document inner).Unmarked :=
  f.front.unmarked_before fun d hd => by
    obtain rfl : d = '<' := (Option.some.inj hd).symm
    decide

end Courier.Xml

namespace Courier.Soap

open Xml (Blanks Content Frame Gap Name Tag)

/-! ### Names without a prefix -/

def envelopeName : Name :=
  ⟨"Envelope".toList, by decide, by decide⟩

def headerName : Name :=
  ⟨"Header".toList, by decide, by decide⟩

def bodyName : Name :=
  ⟨"Body".toList, by decide, by decide⟩

def faultName : Name :=
  ⟨"Fault".toList, by decide, by decide⟩

def faultcodeName : Name :=
  ⟨"faultcode".toList, by decide, by decide⟩

/-! ### Envelopes -/

/-- An envelope without the contents of its header and its body. -/
structure Envelope where
  frame : Frame
  beforeBody : Gap
  body : Tag
  bodyEnd : Blanks
  behindBody : Content
  rootNamed : frame.root.IsNamed "Envelope"
  bodyNamed : body.IsNamed "Body"

/-- A header without its content. -/
structure Header where
  before : Gap
  tag : Tag
  behind : Blanks
  named : tag.IsNamed "Header"

def Header.around (h : Header) (content rest : Content) : Content :=
  h.before.before (.element [] h.tag content h.behind rest)

namespace Envelope

/-- The content of the root from the body on. -/
def bodyOn (e : Envelope) (content : Content) : Content :=
  e.beforeBody.before (.element [] e.body content e.bodyEnd e.behindBody)

/-- The envelope with a body, behind a header if one is given. -/
def document (e : Envelope) (header : Option (Header × Content)) (content : Content) : Content :=
  match header with
  | none => e.frame.document (e.bodyOn content)
  | some (h, inner) => e.frame.document (h.around inner (e.bodyOn content))

/-- What is written up to the content of the body. -/
def opening (e : Envelope) : List Char :=
  e.frame.front.chars ++ '<' :: (e.frame.root.inside ++ '>' :: (e.beforeBody.chars ++
    '<' :: (e.body.inside ++ ['>'])))

/-- What is written from the end tag of the body on. -/
def closing (e : Envelope) : List Char :=
  '<' :: ('/' :: (e.body.name.chars ++ (e.bodyEnd.chars ++ '>' :: (e.behindBody.print ++
    '<' :: ('/' :: (e.frame.root.name.chars ++ (e.frame.behind.chars ++
      '>' :: e.frame.back.chars)))))))

theorem print_document (e : Envelope) (content : Content) :
    (e.document none content).print = e.opening ++ (content.print ++ e.closing) := by
  simp only [document, Frame.document, bodyOn, Gap.print_before, Content.print, opening, closing,
    Xml.spell_nil, List.nil_append, List.append_nil, List.append_assoc, List.cons_append]

end Envelope

end Courier.Soap
