import Courier.Proofs.CharacterData
import Courier.Proofs.MarkupScan
import Mathlib.Data.List.Infix
/-!
Documents as trees, and how they are written: elements with attributes, comments, instructions and
sections of character data, with character data between them.  What is written is scanned without a
defect, each tag and text at its place, whatever stands around it.
-/
namespace Courier.Xml

/-! ### Parts of tags -/

/-- White space of markup, possibly none. -/
structure Blanks where
  chars : List Char
  blank : chars.all Text.isMarkupBlank = true

namespace Blanks

def none : Blanks :=
  ⟨[], rfl⟩

def space : Blanks :=
  ⟨[' '], rfl⟩

theorem space_ne_nil : space.chars ≠ [] :=
  List.cons_ne_nil ' ' []

def newline : Blanks :=
  ⟨['\n'], rfl⟩

end Blanks

/-- A name as markup allows it. -/
structure Name where
  chars : List Char
  starts : chars.head?.any isNameStart = true
  goesOn : chars.all isNameChar = true

inductive Quote
  | double
  | single
deriving Repr, DecidableEq

def Quote.char : Quote → Char
  | double => '"'
  | single => '\''

/-- An attribute with the white space in front of it and around its sign. -/
structure Attribute where
  before : Blanks
  apart : before.chars ≠ []
  name : Name
  beforeSign : Blanks
  behindSign : Blanks
  quote : Quote
  value : List Char
  closed : value.all (· != quote.char) = true

def Attribute.print (a : Attribute) : List Char :=
  a.before.chars ++ (a.name.chars ++ (a.beforeSign.chars ++ ('=' :: (a.behindSign.chars ++
    (a.quote.char :: (a.value ++ [a.quote.char]))))))

/-- A name with attributes, and white space behind them. -/
structure Tag where
  name : Name
  attributes : List Attribute
  space : Blanks

def Tag.bare (name : Name) : Tag :=
  ⟨name, [], .none⟩

/-- What stands between the brackets of a start tag. -/
def Tag.inside (tag : Tag) : List Char :=
  tag.name.chars ++ (tag.attributes.flatMap Attribute.print ++ tag.space.chars)

/-- What is not for the reader of a document: a comment, or an instruction, which a declaration in
front of a document looks like too. -/
inductive Aside
  | comment (content : List Char) (closed : ¬ ['-', '-'] <:+: content)
  | instruction (content : List Char) (closed : ¬ ['?', '>'] <:+: '?' :: content)

/-- Character data that is taken as it is. -/
structure Section where
  content : List Char
  closed : ¬ [']', ']', '>'] <:+: content

/-- Markup that has no content. -/
inductive Leaf
  | empty (tag : Tag)
  | cdata (data : Section)
  | aside (a : Aside)

namespace Leaf

/-- What stands between the outer brackets. -/
def inside : Leaf → List Char
  | empty tag => tag.inside ++ ['/']
  | cdata data =>
      '!' :: '[' :: 'C' :: 'D' :: 'A' :: 'T' :: 'A' :: '[' :: (data.content ++ [']', ']'])
  | aside (.comment content _) => '!' :: '-' :: '-' :: (content ++ ['-', '-'])
  | aside (.instruction content _) => '?' :: (content ++ ['?'])

def event : Leaf → Event
  | empty tag => .empty tag.name.chars tag.inside
  | cdata data => .cdata data.content
  | aside _ => .aside

end Leaf

/-! ### Trees -/

/-- The content of an element, or a whole document: character data, and elements and other markup
with character data in front of each. -/
inductive Content
  | text (glyphs : List Glyph)
  | element (before : List Glyph) (tag : Tag) (inner : Content) (behind : Blanks) (rest : Content)
  | leaf (before : List Glyph) (l : Leaf) (rest : Content)

/-- A text between two pieces of markup; where nothing is written, there is none. -/
def textTokens (position : Nat) (glyphs : List Glyph) : List Token :=
  if (spell glyphs).isEmpty then []
  else [⟨.text (spell glyphs), position, position + (spell glyphs).length⟩]

namespace Content

def print : Content → List Char
  | text glyphs => spell glyphs
  | element before tag inner behind rest =>
      spell before ++ '<' :: (tag.inside ++ '>' :: (print inner ++
        '<' :: (('/' :: (tag.name.chars ++ behind.chars)) ++ '>' :: print rest)))
  | leaf before l rest => spell before ++ '<' :: (l.inside ++ '>' :: print rest)

/-- What a document that begins at a position is scanned as. -/
def tokens (position : Nat) : Content → List Token
  | text glyphs => textTokens position glyphs
  | element before tag inner behind rest =>
      let start := position + (spell before).length
      let next := start + 1 + (tag.inside.length + 1)
      let stop := next + inner.print.length
      let last := stop + 1 + (('/' :: (tag.name.chars ++ behind.chars)).length + 1)
      textTokens position before ++
        ⟨.start tag.name.chars tag.inside, start, next⟩ :: (inner.tokens next ++
          ⟨.stop tag.name.chars, stop, last⟩ :: rest.tokens last)
  | leaf before l rest =>
      let start := position + (spell before).length
      let next := start + 1 + (l.inside.length + 1)
      textTokens position before ++ ⟨l.event, start, next⟩ :: rest.tokens next

/-- The content of the first element, in the order of the start tags, that has a local name. -/
def find? (name : List Char) : Content → Option Content
  | text _ => none
  | element _ tag inner _ rest =>
      if localName tag.name.chars = name then some inner
      else (find? name inner).or (find? name rest)
  | leaf _ _ rest => find? name rest

end Content

/-! ### Cuts -/

/-- A tag can be cut behind characters that leave a quote as another. -/
def Passes (quote quote' : Option Char) (cs : List Char) : Prop :=
  ∀ rest, cutTag quote (cs ++ rest) = (cutTag quote' rest).map fun cut => (cs ++ cut.1, cut.2)

theorem passes_nil (quote : Option Char) : Passes quote quote [] := by
  intro rest
  simp

theorem Passes.append {q₁ q₂ q₃ : Option Char} {front back : List Char}
    (hfront : Passes q₁ q₂ front) (hback : Passes q₂ q₃ back) :
    Passes q₁ q₃ (front ++ back) := by
  intro rest
  rw [List.append_assoc, hfront, hback, Option.map_map]
  simp [Function.comp_def]

theorem quoteBehind_some (q c : Char) :
    quoteBehind (some q) c = if c = q then none else some q :=
  rfl

theorem passes_char {quote : Option Char} {c : Char} (hopen : quote = none → c ≠ '>') :
    Passes quote (quoteBehind quote c) [c] := by
  intro rest
  rw [cutTag_eq_cutBy, cutTag_eq_cutBy, List.cons_append, List.nil_append, cutBy, if_neg]
  · rfl
  · rintro ⟨hc, hquote⟩
    exact hopen (Option.isNone_iff_eq_none.mp hquote) hc

theorem passes_of_forall {quote : Option Char} {cs : List Char}
    (hcs : ∀ c ∈ cs, (quote = none → c ≠ '>') ∧ quoteBehind quote c = quote) :
    Passes quote quote cs := by
  induction cs with
  | nil => exact passes_nil quote
  | cons c cs ih =>
      obtain ⟨hopen, hquote⟩ := hcs c List.mem_cons_self
      have hchar : Passes quote quote [c] := by
        have h := passes_char hopen
        rwa [hquote] at h
      exact hchar.append (ih fun d hd => hcs d (List.mem_cons_of_mem c hd))

/-- Characters that mean nothing inside a tag. -/
def isPlainInTag (c : Char) : Bool :=
  c != '>' && c != '"' && c != '\''

theorem passes_plain {cs : List Char} (hcs : ∀ c ∈ cs, isPlainInTag c = true) :
    Passes none none cs := by
  refine passes_of_forall fun c hc => ?_
  have hplain := hcs c hc
  simp only [isPlainInTag, Bool.and_eq_true, bne_iff_ne] at hplain
  exact ⟨fun _ => hplain.1.1, by simp [quoteBehind, hplain.1.2, hplain.2]⟩

theorem isPlainInTag_of_isMarkupBlank {c : Char} (hc : Text.isMarkupBlank c = true) :
    isPlainInTag c = true := by
  simp only [Text.isMarkupBlank, Bool.or_eq_true, beq_iff_eq] at hc
  rcases hc with ((rfl | rfl) | rfl) | rfl <;> rfl

theorem isPlainInTag_of_isNameChar {c : Char} (hc : isNameChar c = true) :
    isPlainInTag c = true := by
  have hclose : c ≠ '>' := ne_of_isNameChar (by decide) hc
  have hdouble : c ≠ '"' := ne_of_isNameChar (by decide) hc
  have hsingle : c ≠ '\'' := ne_of_isNameChar (by decide) hc
  simp [isPlainInTag, hclose, hdouble, hsingle]

namespace Blanks

variable (b : Blanks)

theorem isMarkupBlank_of_mem {c : Char} (hc : c ∈ b.chars) : Text.isMarkupBlank c = true :=
  List.all_eq_true.mp b.blank c hc

theorem passes : Passes Option.none Option.none b.chars :=
  passes_plain fun _ hc => isPlainInTag_of_isMarkupBlank (b.isMarkupBlank_of_mem hc)

end Blanks

namespace Name

variable (name : Name)

theorem isNameChar_of_mem {c : Char} (hc : c ∈ name.chars) : isNameChar c = true :=
  List.all_eq_true.mp name.goesOn c hc

theorem passes : Passes none none name.chars :=
  passes_plain fun _ hc => isPlainInTag_of_isNameChar (name.isNameChar_of_mem hc)

/-- A name has a first character, and this is none of the signs that other markup begins with. -/
theorem exists_cons : ∃ c more, name.chars = c :: more ∧ c ∉ ['!', '?', '/'] := by
  obtain ⟨chars, hstart, hmore⟩ := name
  cases chars with
  | nil => cases hstart
  | cons c more =>
      refine ⟨c, more, rfl, ?_⟩
      have hc : isNameStart c = true := hstart
      intro hmem
      simp only [List.mem_cons, List.not_mem_nil, or_false] at hmem
      rcases hmem with rfl | rfl | rfl <;> exact absurd hc (by decide)

theorem not_isMarkupBlank {c : Char} (hc : c ∈ name.chars) : Text.isMarkupBlank c = false :=
  not_isMarkupBlank_of_isNameChar (name.isNameChar_of_mem hc)

end Name

theorem Attribute.passes (a : Attribute) : Passes none none a.print := by
  have hquote : Passes none (some a.quote.char) [a.quote.char] := by
    have hopen := @passes_char none a.quote.char fun _ => by cases a.quote <;> decide
    have hbehind : quoteBehind none a.quote.char = some a.quote.char := by
      cases a.quote <;> rfl
    rwa [hbehind] at hopen
  have hvalue : Passes (some a.quote.char) (some a.quote.char) a.value := by
    refine passes_of_forall fun c hc => ⟨(fun h => nomatch h), ?_⟩
    have hne : c ≠ a.quote.char := by simpa using List.all_eq_true.mp a.closed c hc
    rw [quoteBehind_some, if_neg hne]
  have hclose : Passes (some a.quote.char) none [a.quote.char] := by
    have hlast := @passes_char (some a.quote.char) a.quote.char fun h => nomatch h
    rwa [quoteBehind_some, if_pos rfl] at hlast
  have hsign : Passes none none ['='] := passes_plain (by simp [isPlainInTag])
  have h := a.before.passes.append (a.name.passes.append (a.beforeSign.passes.append
    (hsign.append (a.behindSign.passes.append (hquote.append (hvalue.append hclose))))))
  simpa [Attribute.print] using h

theorem passes_attributes (attributes : List Attribute) :
    Passes none none (attributes.flatMap Attribute.print) := by
  induction attributes with
  | nil => exact passes_nil none
  | cons a attributes ih => exact a.passes.append ih

theorem Attribute.getLast_print (a : Attribute) : a.print.getLast? = some a.quote.char := by
  simp [Attribute.print, List.getLast?_cons]

theorem forall_getLast?_append {α : Type} {P : α → Prop} {front back : List α}
    (hfront : ∀ a ∈ front.getLast?, P a) (hback : ∀ a ∈ back.getLast?, P a) :
    ∀ a ∈ (front ++ back).getLast?, P a := by
  intro a ha
  rw [Option.mem_def, List.getLast?_append, Option.or_eq_some_iff] at ha
  rcases ha with ha | ⟨-, ha⟩
  · exact hback a ha
  · exact hfront a ha

theorem getLast_attributes (attributes : List Attribute) :
    ∀ c ∈ (attributes.flatMap Attribute.print).getLast?, c ≠ '/' := by
  induction attributes with
  | nil => exact fun c hc => nomatch hc
  | cons a attributes ih =>
      refine forall_getLast?_append ?_ ih
      intro c hc
      rw [a.getLast_print] at hc
      cases hc
      cases a.quote <;> decide

namespace Tag

variable (tag : Tag)

theorem passes : Passes none none tag.inside :=
  tag.name.passes.append ((passes_attributes tag.attributes).append tag.space.passes)

/-- What follows the name in a tag begins with white space, if there is anything. -/
theorem head_behind_name :
    ∀ c ∈ (tag.attributes.flatMap Attribute.print ++ tag.space.chars).head?,
      Text.isMarkupBlank c = true := by
  intro c hc
  cases hattributes : tag.attributes with
  | nil =>
      rw [hattributes] at hc
      exact tag.space.isMarkupBlank_of_mem (List.mem_of_mem_head? hc)
  | cons a attributes =>
      obtain ⟨d, more, hd⟩ := List.exists_cons_of_ne_nil a.apart
      rw [hattributes, List.flatMap_cons, Attribute.print, hd] at hc
      obtain rfl : d = c := by simpa using hc
      exact a.before.isMarkupBlank_of_mem (hd ▸ List.mem_cons_self)

theorem tagName_inside : tagName tag.inside = tag.name.chars := by
  have hname : ∀ c ∈ tag.name.chars, (!Text.isMarkupBlank c) = true := fun c hc => by
    rw [tag.name.not_isMarkupBlank hc]
    rfl
  rw [tagName, inside, List.takeWhile_append_of_pos hname]
  have hhead := tag.head_behind_name
  cases hbehind : tag.attributes.flatMap Attribute.print ++ tag.space.chars with
  | nil => rw [List.takeWhile_nil, List.append_nil]
  | cons c more =>
      have hblank : Text.isMarkupBlank c = true := hhead c (by rw [hbehind]; rfl)
      rw [List.takeWhile_cons_of_neg (by simp [hblank]), List.append_nil]

theorem getLast_inside : ∀ c ∈ tag.inside.getLast?, c ≠ '/' := by
  refine forall_getLast?_append ?_ (forall_getLast?_append ?_ ?_)
  · intro c hc
    exact ne_of_isNameChar (by decide) (tag.name.isNameChar_of_mem (List.mem_of_getLast? hc))
  · intro c hc
    exact getLast_attributes tag.attributes c hc
  · intro c hc
    have hblank := tag.space.isMarkupBlank_of_mem (List.mem_of_getLast? hc)
    rintro rfl
    cases hblank

end Tag

/-! ### Markup -/

/-- A cut is made behind a tag when the test allows it there and nowhere before. -/
theorem cutWhere_eq {test : List Char → Bool} {tag : List Char} (passed : List Char)
    (hends : test (tag.reverse ++ passed) = true)
    (hfirst : ∀ front back, tag = front ++ '>' :: back → test (front.reverse ++ passed) = false)
    (rest : List Char) :
    cutWhere test passed (tag ++ '>' :: rest) = some (passed.reverse ++ tag, rest) := by
  induction tag generalizing passed with
  | nil =>
      rw [List.nil_append, cutWhere, if_pos ⟨rfl, hends⟩, List.append_nil]
  | cons c tag ih =>
      have hnot : ¬ (c = '>' ∧ test passed = true) := by
        rintro ⟨rfl, htest⟩
        rw [← List.nil_append passed, ← List.reverse_nil, hfirst [] tag rfl] at htest
        cases htest
      rw [List.cons_append, cutWhere, if_neg hnot, ih (c :: passed)]
      · simp
      · simpa using hends
      · intro front back htag
        have hbefore := hfirst (c :: front) back (by rw [htag]; rfl)
        simpa using hbefore

/-- Between an opening and a closing sequence, the closing sequence with a `>` behind it stands only
where the content has it. -/
theorem infix_of_closing {opening content closing front back : List Char}
    (htext : opening ++ (content ++ closing) = front ++ (closing ++ '>' :: back))
    (hopening : opening.length ≤ front.length) (hclosing : '>' ∉ closing) :
    closing ++ ['>'] <:+: content := by
  obtain ⟨middle, hfront⟩ : opening <+: front :=
    List.prefix_of_prefix_length_le (List.prefix_append opening _)
      (htext ▸ List.prefix_append front _) hopening
  rw [← hfront, List.append_assoc] at htext
  have hcontent : content ++ closing = (middle ++ (closing ++ ['>'])) ++ back := by
    have h := List.append_cancel_left htext
    simpa using h
  -- what the content ends with is behind the `>`, which the closing sequence does not have
  have hback : closing <:+ back := by
    have hall : '>' :: back <:+ content ++ closing :=
      ⟨middle ++ closing, by rw [hcontent]; simp⟩
    rcases List.suffix_or_suffix_of_suffix (List.suffix_append content closing) hall with h | h
    · rcases List.suffix_cons_iff.mp h with rfl | h
      · exact absurd List.mem_cons_self hclosing
      · exact h
    · exact absurd (h.subset List.mem_cons_self) hclosing
  obtain ⟨more, rfl⟩ := hback
  refine ⟨middle, more, ?_⟩
  rw [← List.append_assoc] at hcontent
  exact (List.append_cancel_right hcontent).symm

/-- A form that fits and cuts off a tag reads what it makes of the tag. -/
theorem Form.Fits.scanMarkup_eq {form : Form} {opened : List (List Char)} {tag rest : List Char}
    {made : Event × List (List Char)} (hfits : form.Fits opened (tag ++ '>' :: rest))
    (hcut : form.cut (tag ++ '>' :: rest) = some (tag, rest)) (hmake : form.make tag = .ok made) :
    scanMarkup opened (tag ++ '>' :: rest) = .ok (⟨made.1, tag.length + 1, rest⟩, made.2) := by
  have hread := hfits.reads []
  rw [List.append_nil] at hread
  rw [hread, Form.read, hcut]
  simp only [hmake, Except.map]

theorem exists_of_isPrefixOf_reverse {closing front : List Char}
    (h : closing.reverse.isPrefixOf front.reverse = true) :
    ∃ before, front = before ++ closing := by
  rw [List.isPrefixOf_iff_prefix, List.reverse_prefix] at h
  obtain ⟨before, rfl⟩ := h
  exact ⟨before, rfl⟩

theorem cutWhere_comment {content : List Char} (hclosed : ¬ ['-', '-'] <:+: content)
    (rest : List Char) :
    cutWhere endsComment [] (('!' :: '-' :: '-' :: (content ++ ['-', '-'])) ++ '>' :: rest) =
      some ('!' :: '-' :: '-' :: (content ++ ['-', '-']), rest) := by
  refine cutWhere_eq [] (by simp [endsComment]) ?_ rest
  intro front back htag
  by_contra hends
  rw [Bool.not_eq_false, List.append_nil, endsComment, Bool.and_eq_true, decide_eq_true_eq,
    List.length_reverse] at hends
  obtain ⟨hlength, hends⟩ := hends
  obtain ⟨before, rfl⟩ := @exists_of_isPrefixOf_reverse ['-', '-'] front hends
  have hopening : 3 ≤ before.length := by
    simp only [List.length_append, List.length_cons, List.length_nil] at hlength
    omega
  rw [List.append_assoc] at htag
  have hinfix := @infix_of_closing ['!', '-', '-'] content ['-', '-'] before back htag
    hopening (by decide)
  exact hclosed ((List.prefix_append ['-', '-'] ['>']).isInfix.trans hinfix)

theorem cutWhere_cdata {content : List Char} (hclosed : ¬ [']', ']', '>'] <:+: content)
    (rest : List Char) :
    cutWhere endsCdata []
        (('!' :: '[' :: 'C' :: 'D' :: 'A' :: 'T' :: 'A' :: '[' :: (content ++ [']', ']'])) ++
          '>' :: rest) =
      some ('!' :: '[' :: 'C' :: 'D' :: 'A' :: 'T' :: 'A' :: '[' :: (content ++ [']', ']']),
        rest) := by
  refine cutWhere_eq [] (by simp [endsCdata]) ?_ rest
  intro front back htag
  by_contra hends
  rw [Bool.not_eq_false, List.append_nil, endsCdata] at hends
  obtain ⟨before, rfl⟩ := @exists_of_isPrefixOf_reverse [']', ']'] front hends
  rw [List.append_assoc] at htag
  have hopening : 8 ≤ before.length := by
    -- a bracket that closes is none of the characters in front of the content
    by_contra hshort
    have hchar := congrArg (fun cs => cs[before.length]?) htag
    have hmem : ']' ∈ ['!', '[', 'C', 'D', 'A', 'T', 'A', '['] := by
      refine List.mem_of_getElem? (i := before.length) ?_
      have hfront := @List.getElem?_append_left _ ['!', '[', 'C', 'D', 'A', 'T', 'A', '[']
        (content ++ [']', ']']) _ (Nat.lt_of_not_le hshort)
      rw [← hfront]
      simpa using hchar
    exact absurd hmem (by decide)
  have hinfix := @infix_of_closing ['!', '[', 'C', 'D', 'A', 'T', 'A', '['] content [']', ']']
    before back htag hopening (by decide)
  exact hclosed hinfix

theorem cutWhere_instruction {content : List Char} (hclosed : ¬ ['?', '>'] <:+: '?' :: content)
    (rest : List Char) :
    cutWhere endsInstruction [] (('?' :: (content ++ ['?'])) ++ '>' :: rest) =
      some ('?' :: (content ++ ['?']), rest) := by
  refine cutWhere_eq [] (by simp [endsInstruction]) ?_ rest
  intro front back htag
  by_contra hends
  rw [Bool.not_eq_false, List.append_nil, endsInstruction, decide_eq_true_eq,
    List.head?_reverse] at hends
  obtain ⟨before, rfl⟩ := List.getLast?_eq_some_iff.mp hends
  rw [List.append_assoc] at htag
  have hinfix := @infix_of_closing [] ('?' :: content) ['?'] before back htag (Nat.zero_le _)
    (by decide)
  exact hclosed hinfix

variable (opened : List (List Char)) (rest : List Char)

theorem scanMarkup_tag (tag : Tag) :
    scanMarkup opened (tag.inside ++ '>' :: rest) =
      .ok (⟨.start tag.name.chars tag.inside, tag.inside.length + 1, rest⟩,
        tag.name.chars :: opened) := by
  have hcut : cutTag none (tag.inside ++ '>' :: rest) = some (tag.inside, rest) := by
    rw [tag.passes, cutTag, if_pos ⟨rfl, rfl⟩, Option.map_some, List.append_nil]
  have hmake : (Form.element opened).make tag.inside =
      .ok (.start tag.name.chars tag.inside, tag.name.chars :: opened) := by
    have hlast : tag.inside.getLast? ≠ some '/' := fun h => tag.getLast_inside '/' h rfl
    simp only [Form.element, if_neg hlast, tag.tagName_inside]
  obtain ⟨c, more, hname, hc⟩ := tag.name.exists_cons
  have hfits : (Form.element opened).Fits opened (tag.inside ++ '>' :: rest) := by
    rw [Tag.inside, hname]
    exact Form.fits_element hc
  exact hfits.scanMarkup_eq hcut hmake

theorem scanMarkup_empty (tag : Tag) :
    scanMarkup opened ((tag.inside ++ ['/']) ++ '>' :: rest) =
      .ok (⟨.empty tag.name.chars tag.inside, (tag.inside ++ ['/']).length + 1, rest⟩, opened) := by
  have hpasses : Passes none none (tag.inside ++ ['/']) :=
    tag.passes.append (passes_plain (by simp [isPlainInTag]))
  have hcut : cutTag none ((tag.inside ++ ['/']) ++ '>' :: rest) =
      some (tag.inside ++ ['/'], rest) := by
    rw [hpasses, cutTag, if_pos ⟨rfl, rfl⟩, Option.map_some, List.append_nil]
  have hmake : (Form.element opened).make (tag.inside ++ ['/']) =
      .ok (.empty tag.name.chars tag.inside, opened) := by
    simp only [Form.element, List.getLast?_concat, if_true, List.dropLast_concat,
      tag.tagName_inside]
  obtain ⟨c, more, hname, hc⟩ := tag.name.exists_cons
  have hfits : (Form.element opened).Fits opened ((tag.inside ++ ['/']) ++ '>' :: rest) := by
    rw [Tag.inside, hname]
    exact Form.fits_element hc
  exact hfits.scanMarkup_eq hcut hmake

theorem scanMarkup_leaf (l : Leaf) :
    scanMarkup opened (l.inside ++ '>' :: rest) =
      .ok (⟨l.event, l.inside.length + 1, rest⟩, opened) := by
  cases l with
  | empty tag => exact scanMarkup_empty opened rest tag
  | cdata data =>
      have hmake : (Form.cdata opened).make (Leaf.cdata data).inside =
          .ok (.cdata data.content, opened) := by
        simp [Form.cdata, Leaf.inside, beginsWith]
      exact Form.fits_cdata.scanMarkup_eq (cutWhere_cdata data.closed rest) hmake
  | aside a =>
      cases a with
      | comment content closed =>
          have hmake : (Form.comment opened).make (Leaf.aside (.comment content closed)).inside =
              .ok (.aside, opened) := by
            simp [Form.comment, Leaf.inside, beginsWith]
          exact Form.fits_comment.scanMarkup_eq (cutWhere_comment closed rest) hmake
      | instruction content closed =>
          have hmake : (Form.instruction opened).make
              (Leaf.aside (.instruction content closed)).inside = .ok (.aside, opened) := by
            simp [Form.instruction, Leaf.inside]
          exact Form.fits_instruction.scanMarkup_eq (cutWhere_instruction closed rest) hmake

theorem endName_append_blanks (name : Name) (behind : Blanks) :
    endName (name.chars ++ behind.chars) = name.chars := by
  obtain ⟨c, more, hname, -⟩ := name.exists_cons
  have hc : Text.isMarkupBlank c = false :=
    name.not_isMarkupBlank (hname ▸ List.mem_cons_self)
  have hall : (name.chars ++ behind.chars).all Text.isMarkupBlank ≠ true := by
    rw [hname, List.cons_append, List.all_cons, hc, Bool.false_and]
    exact Bool.false_ne_true
  have hbehind : ∀ d ∈ behind.chars.reverse, Text.isMarkupBlank d = true := fun d hd =>
    behind.isMarkupBlank_of_mem (List.mem_reverse.mp hd)
  obtain ⟨d, back, hback⟩ : ∃ d back, name.chars.reverse = d :: back :=
    List.exists_cons_of_ne_nil (by rw [hname]; simp)
  have hd : Text.isMarkupBlank d = false :=
    name.not_isMarkupBlank (List.mem_reverse.mp (hback ▸ List.mem_cons_self))
  rw [endName, if_neg hall, trimEnd, List.reverse_append, List.dropWhile_append_of_pos hbehind,
    hback, List.dropWhile_cons_of_neg (by simp [hd]), ← hback, List.reverse_reverse]

theorem scanMarkup_stop (name : Name) (behind : Blanks) :
    scanMarkup (name.chars :: opened) (('/' :: (name.chars ++ behind.chars)) ++ '>' :: rest) =
      .ok (⟨.stop name.chars, ('/' :: (name.chars ++ behind.chars)).length + 1, rest⟩, opened) := by
  have hpasses : Passes none none ('/' :: (name.chars ++ behind.chars)) :=
    Passes.append (@passes_plain ['/'] (by simp [isPlainInTag]))
      (name.passes.append behind.passes)
  have hcut : cutTag none (('/' :: (name.chars ++ behind.chars)) ++ '>' :: rest) =
      some ('/' :: (name.chars ++ behind.chars), rest) := by
    rw [hpasses, cutTag, if_pos ⟨rfl, rfl⟩, Option.map_some, List.append_nil]
  have hmake : (Form.stop name.chars opened).make ('/' :: (name.chars ++ behind.chars)) =
      .ok (.stop name.chars, opened) := by
    simp only [Form.stop, List.drop_succ_cons, List.drop_zero, endName_append_blanks, if_true]
  exact Form.fits_stop.scanMarkup_eq hcut hmake

/-! ### Scans -/

/-- A scan with enough fuel for the text. -/
def scanOn (position : Nat) (opened : List (List Char)) (cs : List Char) : Scan :=
  scanFrom position opened (cs.length + 1) cs

/-- What a scan has found, behind other tokens. -/
def Scan.behind (tokens : List Token) (s : Scan) : Scan :=
  ⟨tokens ++ s.tokens, s.defect⟩

theorem Scan.behind_behind (front back : List Token) (s : Scan) :
    (s.behind back).behind front = s.behind (front ++ back) := by
  simp [Scan.behind]

theorem length_dropWhile_lt {c : Char} {cs : List Char} (hc : c ≠ '<') :
    ((c :: cs).dropWhile (· != '<')).length < (c :: cs).length := by
  rw [List.dropWhile_cons_of_pos (by simpa using hc), List.length_cons]
  exact Nat.lt_succ_of_le (List.dropWhile_sublist _).length_le

/-- Fuel beyond the length of the text changes nothing. -/
theorem scanFrom_fuel {fuel fuel' : Nat} (position : Nat) {opened : List (List Char)}
    {cs : List Char} (hfuel : cs.length < fuel) (hfuel' : cs.length < fuel') :
    scanFrom position opened fuel cs = scanFrom position opened fuel' cs := by
  induction fuel generalizing position opened cs fuel' with
  | zero => exact absurd hfuel (Nat.not_lt_zero _)
  | succ fuel ih =>
      obtain ⟨fuel', rfl⟩ := Nat.exists_eq_add_one_of_ne_zero (Nat.ne_zero_of_lt hfuel')
      cases cs with
      | nil => rfl
      | cons c cs =>
          rw [List.length_cons] at hfuel hfuel'
          by_cases hc : c = '<'
          · subst hc
            rw [scanFrom, scanFrom]
            cases hfound : scanMarkup opened cs with
            | error defect => rfl
            | ok result =>
                obtain ⟨found, between⟩ := result
                have hlength := (scanMarkup_spec hfound).1
                simp only
                exact congrArg (Scan.behind [_]) (ih _ (by omega) (by omega))
          · have hlength := @length_dropWhile_lt c cs hc
            rw [List.length_cons] at hlength
            rw [scanFrom, scanFrom]
            · exact congrArg (Scan.behind [_]) (ih _ (by omega) (by omega))
            all_goals simp [hc]

theorem scanOn_markup {position : Nat} {opened between : List (List Char)} {cs : List Char}
    {found : Found} (hfound : scanMarkup opened cs = .ok (found, between)) :
    scanOn position opened ('<' :: cs) =
      (scanOn (position + 1 + found.length) between found.rest).behind
        [⟨found.event, position, position + 1 + found.length⟩] := by
  have hlength := (scanMarkup_spec hfound).1
  rw [scanOn, List.length_cons, scanFrom, hfound]
  simp only
  rw [scanFrom_fuel (position + 1 + found.length) (Nat.lt_succ_of_lt hlength)
    (Nat.lt_succ_self found.rest.length)]
  rfl

/-- A text is scanned up to the next piece of markup. -/
theorem scanOn_spell {position : Nat} {opened : List (List Char)} {cs : List Char}
    (glyphs : List Glyph) (hends : TextEnds cs) :
    scanOn position opened (spell glyphs ++ cs) =
      (scanOn (position + (spell glyphs).length) opened cs).behind
        (textTokens position glyphs) := by
  rw [textTokens]
  cases hspell : spell glyphs with
  | nil => rfl
  | cons c raw =>
      have hraw : ∀ d ∈ c :: raw, d ≠ '<' := hspell ▸ ne_bracket_of_mem_spell glyphs
      have hc : c ≠ '<' := hraw c List.mem_cons_self
      obtain ⟨htake, hdrop⟩ := takeWhile_of_textEnds hraw hends
      rw [List.cons_append] at htake hdrop ⊢
      have hlength := @length_dropWhile_lt c (raw ++ cs) hc
      rw [hdrop] at hlength
      rw [scanOn, scanFrom]
      · simp only [htake, hdrop]
        rw [scanFrom_fuel _ hlength (Nat.lt_succ_self cs.length)]
        rfl
      all_goals simp [hc]

namespace Content

theorem textEnds_markup (cs : List Char) : TextEnds ('<' :: cs) := by
  intro c hc
  exact (Option.some.inj hc).symm

/-- A document is scanned as its tokens, in front of whatever follows. -/
theorem scanOn_print (c : Content) (position : Nat) (opened : List (List Char)) {tail : List Char}
    (hends : TextEnds tail) :
    scanOn position opened (c.print ++ tail) =
      (scanOn (position + c.print.length) opened tail).behind (c.tokens position) := by
  induction c generalizing position opened tail with
  | text glyphs => exact scanOn_spell glyphs hends
  | element before tag inner behind rest ihinner ihrest =>
      have hopen := scanMarkup_tag opened (inner.print ++ '<' ::
        (('/' :: (tag.name.chars ++ behind.chars)) ++ '>' :: (rest.print ++ tail))) tag
      have hstop := scanMarkup_stop opened (rest.print ++ tail) tag.name behind
      have htext : (element before tag inner behind rest).print ++ tail =
          spell before ++ '<' :: (tag.inside ++ '>' :: (inner.print ++ '<' ::
            (('/' :: (tag.name.chars ++ behind.chars)) ++ '>' :: (rest.print ++ tail)))) := by
        simp [print]
      have hlength : position + (spell before).length + 1 + (tag.inside.length + 1) +
          inner.print.length + 1 + (('/' :: (tag.name.chars ++ behind.chars)).length + 1) +
            rest.print.length = position + (element before tag inner behind rest).print.length := by
        simp only [print, List.length_append, List.length_cons]
        omega
      rw [htext, scanOn_spell before (textEnds_markup _), scanOn_markup hopen,
        ihinner _ _ (textEnds_markup _), scanOn_markup hstop, ihrest _ _ hends]
      simp only [Scan.behind_behind, tokens, List.singleton_append, hlength]
  | leaf before l rest ih =>
      have hleaf := scanMarkup_leaf opened (rest.print ++ tail) l
      have htext : (leaf before l rest).print ++ tail =
          spell before ++ '<' :: (l.inside ++ '>' :: (rest.print ++ tail)) := by
        simp [print]
      have hlength : position + (spell before).length + 1 + (l.inside.length + 1) +
          rest.print.length = position + (leaf before l rest).print.length := by
        simp only [print, List.length_append, List.length_cons]
        omega
      rw [htext, scanOn_spell before (textEnds_markup _), scanOn_markup hleaf, ih _ _ hends]
      simp only [Scan.behind_behind, tokens, List.singleton_append, hlength]

/-- A document without a byte order mark is scanned as its tokens, to the end. -/
theorem scan_print (c : Content) (hmark : withoutMark c.print = c.print) :
    scan c.print = ⟨c.tokens 0, none⟩ := by
  have hall := @scanOn_print c 0 [] [] (by simp [TextEnds])
  have hend : scanOn (0 + c.print.length) [] [] = ⟨[], none⟩ := rfl
  rw [List.append_nil, hend] at hall
  rw [scan, hmark]
  exact hall.trans (congrArg (Scan.mk · none) (List.append_nil _))

/-! ### Names of elements -/

theorem localName_suffix (name : List Char) : localName name <:+ name := by
  rw [localName]
  split
  · exact (List.drop_suffix 1 _).trans (List.dropWhile_suffix _)
  · exact List.suffix_rfl

theorem isInfix_tag (tag : Tag) (before rest : List Char) :
    localName tag.name.chars <:+: before ++ '<' :: (tag.inside ++ '>' :: rest) := by
  have hname : localName tag.name.chars <:+: tag.inside :=
    (localName_suffix _).isInfix.trans (List.prefix_append _ _).isInfix
  refine hname.trans ⟨before ++ ['<'], '>' :: rest, ?_⟩
  simp

theorem print_inner_isInfix (before : List Glyph) (tag : Tag) (inner : Content) (behind : Blanks)
    (rest : Content) : inner.print <:+: (element before tag inner behind rest).print :=
  ⟨spell before ++ '<' :: (tag.inside ++ ['>']),
    '<' :: (('/' :: (tag.name.chars ++ behind.chars)) ++ '>' :: rest.print), by simp [print]⟩

theorem print_rest_isSuffix (before : List Glyph) (tag : Tag) (inner : Content) (behind : Blanks)
    (rest : Content) : rest.print <:+ (element before tag inner behind rest).print :=
  ⟨spell before ++ '<' :: (tag.inside ++ '>' :: (inner.print ++
    '<' :: (('/' :: (tag.name.chars ++ behind.chars)) ++ ['>']))), by simp [print]⟩

/-- The name of an element occurs in the text of the document. -/
theorem isInfix_of_find? {name : List Char} {c inner : Content} (h : c.find? name = some inner) :
    name <:+: c.print := by
  induction c with
  | text glyphs => cases h
  | element before tag content behind rest ihinner ihrest =>
      rw [find?] at h
      split at h
      · rename_i hname
        exact hname ▸ isInfix_tag tag _ _
      · rcases Option.or_eq_some_iff.mp h with h | ⟨-, h⟩
        · exact (ihinner h).trans (print_inner_isInfix before tag content behind rest)
        · exact (ihrest h).trans (print_rest_isSuffix before tag content behind rest).isInfix
  | leaf before l rest ih =>
      refine (ih h).trans (List.IsSuffix.isInfix ⟨spell before ++ '<' :: (l.inside ++ ['>']), ?_⟩)
      simp [print]

end Content

end Courier.Xml
