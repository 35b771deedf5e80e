import Courier.Proofs.Lookup
import Courier.Proofs.MarkupTree
import Courier.Proofs.Preparation
/-!
Records of texts and whole numbers as markup.  Writing such a record gives an element with one child
for each field, whatever characters the texts have.
-/
namespace Courier.Xml

/-! ### Records -/

/-- A value without parts: a text with no white space at its ends, or a whole number of some
width. -/
inductive FlatValue
  | text (s : String) (trimmed : IsTrimmed s)
  | unsigned (bits n : Nat) (fits : n < Nat.pow 2 bits)

namespace FlatValue

def datum : FlatValue → Datum
  | text s _ => .text s
  | unsigned _ n _ => .whole n

def shape : FlatValue → Json.Shape
  | text _ _ => .text
  | unsigned bits _ _ => .unsigned bits

def json : FlatValue → Json
  | text s _ => .string s
  | unsigned _ n _ => .nat n

/-- The text of a value. -/
def written : FlatValue → String
  | text s _ => s
  | unsigned _ n _ => String.ofList (Nat.toDigits 10 n)

end FlatValue

structure FlatField where
  name : String
  value : FlatValue

/-- A name that can be that of a field in an element of its own, and that has no namespace. -/
def IsFieldName (name : String) : Prop :=
  name ≠ "" ∧ ∀ c ∈ name.toList, c ∉ [':', '@', '$']

/-- A record of values without parts. -/
structure FlatRecord where
  name : String
  fields : List FlatField
  named : name ≠ ""
  fieldsNamed : ∀ f ∈ fields, IsFieldName f.name
  distinct : (fields.map FlatField.name).Nodup

namespace FlatRecord

variable (r : FlatRecord)

def datum : Datum :=
  .record r.name (r.fields.map fun f => (f.name, f.value.datum))

def shape : Json.Shape :=
  .record r.name (r.fields.map fun f => (f.name, f.value.shape, .refused))

def json : Json :=
  Json.ofFields (r.fields.map fun f => (f.name, f.value.json))

end FlatRecord

/-! ### Values -/

/-- Digits stand for themselves, and no white space is among them. -/
theorem digit_plain {c : Char} (hc : c.isDigit = true) :
    escapeChar .text c = [c] ∧ Text.isMarkupBlank c = false := by
  have hne : ∀ d : Char, d.isDigit = false → c ≠ d := by
    rintro d hd rfl
    rw [hd] at hc
    cases hc
  constructor
  · rw [escapeChar, if_neg (hne '<' rfl), if_neg (hne '>' rfl), if_neg (hne '&' rfl),
      if_neg (by simp)]
  · simp [Text.isMarkupBlank, hne ' ' rfl, hne '\t' rfl, hne '\n' rfl, hne '\r' rfl]

theorem isDigit_of_mem_toDigits {n : Nat} {c : Char} (hc : c ∈ Nat.toDigits 10 n) :
    c.isDigit = true :=
  Nat.isDigit_of_mem_toDigits (by decide) (by decide) hc

namespace FlatValue

variable (v : FlatValue)

/-- The text of a value with its characters escaped. -/
def glyphs : List Glyph :=
  v.written.toList.map Glyph.escaped

theorem spell_glyphs : spell v.glyphs = escape .text v.written :=
  spell_escaped v.written

theorem map_char_glyphs : String.ofList (v.glyphs.map Glyph.char) = v.written := by
  rw [glyphs, map_char_escaped, String.ofList_toList]

theorem isTrimmed_written : IsTrimmed v.written := by
  cases v with
  | text s trimmed => exact trimmed
  | unsigned bits n fits =>
      have hdigits : ∀ c ∈ Nat.toDigits 10 n, Text.isMarkupBlank c = false := fun c hc =>
        (digit_plain (isDigit_of_mem_toDigits hc)).2
      rw [IsTrimmed, written, String.toList_ofList]
      exact ⟨fun c hc => hdigits c (List.mem_of_mem_head? hc),
        fun c hc => hdigits c (List.mem_of_getLast? hc)⟩

theorem trimGlyphs_glyphs : trimGlyphs v.glyphs = v.glyphs := by
  refine trimGlyphs_of_isTrimmed ?_
  rw [map_char_glyphs]
  exact v.isTrimmed_written

/-- A value is written as an element around its text, or as an empty one for no text. -/
theorem element_datum (key : List Char) :
    element key v.datum =
      .ok (if v.written.isEmpty then emptyElement key
        else wrapped key (escape .text v.written)) := by
  cases v with
  | text s trimmed =>
      have htext : element key (.text s) =
          if s.isEmpty then .ok (emptyElement key) else .ok (wrapped key (escape .text s)) := by
        rw [element]
      rw [datum, htext, written]
      split <;> rfl
  | unsigned bits n fits =>
      have hsome : (String.ofList (Nat.toDigits 10 n)).isEmpty = false := by
        simp [Nat.toDigits_ne_nil]
      have hescape : escape .text (String.ofList (Nat.toDigits 10 n)) = Nat.toDigits 10 n := by
        rw [escape, String.toList_ofList, List.flatMap_congr fun c hc =>
          (digit_plain (isDigit_of_mem_toDigits hc)).1]
        exact List.flatMap_singleton' _
      rw [datum, written, hsome, hescape, element]
      rfl

end FlatValue

/-! ### Writing -/

/-- An element with character data; where there is none, it is closed in its own tag. -/
def bareElement (name : Name) (glyphs : List Glyph) (rest : Content) : Content :=
  if glyphs.isEmpty then .leaf [] (.empty (Tag.bare name)) rest
  else .element [] (Tag.bare name) (.text glyphs) .none rest

/-- The elements of the fields of a record. -/
inductive FieldElements : List FlatField → Content → Prop
  | nil : FieldElements [] (.text [])
  | cons {f : FlatField} {name : Name} (hname : name.chars = f.name.toList)
      {fields : List FlatField} {rest : Content} (hrest : FieldElements fields rest) :
      FieldElements (f :: fields) (bareElement name f.value.glyphs rest)

theorem checkName_cons {name : String} {c : Char} {more : List Char}
    (h : name.toList = c :: more) :
    checkName name =
      if isNameStart c then
        ((c :: more).find? fun d => !isNameChar d).elim (.ok (c :: more)) fun b =>
          .error (.nameChar b name)
      else .error (.nameStart c name) := by
  rw [checkName, h]
  cases hstart : isNameStart c with
  | true => cases (c :: more).find? fun d => !isNameChar d <;> simp [hstart]
  | false => simp [hstart]

/-- A name that is written is one that markup allows. -/
theorem exists_name_of_checkName {name : String} {cs : List Char} (hne : name ≠ "")
    (h : checkName name = .ok cs) : cs = name.toList ∧ ∃ n : Name, n.chars = name.toList := by
  obtain ⟨c, more, hcons⟩ := List.exists_cons_of_ne_nil (mt String.toList_eq_nil_iff.mp hne)
  rw [checkName_cons hcons] at h
  split at h
  · rename_i hstart
    cases hfind : (c :: more).find? fun d => !isNameChar d with
    | some b =>
        rw [hfind] at h
        cases h
    | none =>
        rw [hfind] at h
        have hall : (c :: more).all isNameChar = true := by
          simpa [List.find?_eq_none] using hfind
        exact ⟨by rw [hcons, ← Except.ok.inj h], ⟨c :: more, hstart, hall⟩, hcons.symm⟩
  · cases h

theorem checkName_of_name {name : String} {n : Name} (h : n.chars = name.toList) :
    checkName name = .ok name.toList := by
  obtain ⟨c, more, hcons, -⟩ := n.exists_cons
  have hstart : isNameStart c = true := by
    have hstarts := n.starts
    rw [hcons] at hstarts
    exact hstarts
  have hfind : ((c :: more).find? fun d => !isNameChar d) = none := by
    rw [List.find?_eq_none]
    intro d hd
    simpa using n.isNameChar_of_mem (hcons ▸ hd)
  rw [checkName_cons (h.symm.trans hcons), if_pos hstart, hfind, ← h, hcons]
  rfl

/-- A field with a plain name is written as an element. -/
theorem fieldPart_eq {name : String} (hname : IsFieldName name) (value : Datum) :
    fieldPart name value =
      checkName name >>= fun key => element key value >>= fun text => .ok ([], text) := by
  have hattribute : attributeName? name = none := by
    unfold attributeName?
    split
    · rename_i rest h
      exact absurd (hname.2 '@' (h ▸ List.mem_cons_self)) (by decide)
    · rfl
  have hdollar : ∀ other : String, '$' ∈ other.toList → name ≠ other := by
    rintro other hmem rfl
    exact absurd (hname.2 '$' hmem) (by decide)
  rw [fieldPart, hattribute]
  simp only [if_neg (hdollar "$text" (by decide)), if_neg (hdollar "$value" (by decide))]

theorem isEmpty_glyphs (v : FlatValue) : v.glyphs.isEmpty = v.written.isEmpty := by
  rw [FlatValue.glyphs, List.isEmpty_map, Bool.eq_iff_iff, List.isEmpty_iff,
    String.toList_eq_nil_iff, String.isEmpty_iff]

theorem print_bareElement (name : Name) (v : FlatValue) (rest : Content) :
    (bareElement name v.glyphs rest).print =
      (if v.written.isEmpty then emptyElement name.chars
        else wrapped name.chars (escape .text v.written)) ++ rest.print := by
  rw [bareElement, isEmpty_glyphs]
  split
  · simp [Content.print, emptyElement, Leaf.inside, Tag.inside, Tag.bare, Blanks.none]
  · simp [Content.print, wrapped, Tag.inside, Tag.bare, Blanks.none, v.spell_glyphs]

/-- The fields of a record are written as an element each. -/
theorem fieldElements_of_fieldParts {fields : List FlatField} {attributes text : List Char}
    (hnames : ∀ f ∈ fields, IsFieldName f.name)
    (h : fieldParts (fields.map fun f => (f.name, f.value.datum)) = .ok (attributes, text)) :
    attributes = [] ∧ ∃ tree, FieldElements fields tree ∧ tree.print = text := by
  induction fields generalizing attributes text with
  | nil =>
      rw [List.map_nil, fieldParts, Except.ok.injEq, Prod.mk.injEq] at h
      exact ⟨h.1.symm, .text [], .nil, h.2⟩
  | cons f fields ih =>
      have hname := hnames f List.mem_cons_self
      rw [List.map_cons, fieldParts, fieldPart_eq hname] at h
      obtain ⟨⟨first, own⟩, hfield, h⟩ := bind_eq_ok_iff.mp h
      obtain ⟨⟨others, later⟩, hrest, h⟩ := bind_eq_ok_iff.mp h
      obtain ⟨key, hkey, hbelow⟩ := bind_eq_ok_iff.mp hfield
      obtain ⟨markup, hmarkup, hpair⟩ := bind_eq_ok_iff.mp hbelow
      obtain ⟨rfl, n, hn⟩ := exists_name_of_checkName hname.1 hkey
      obtain ⟨rfl, tree, htree, rfl⟩ := ih (fun g hg => hnames g (List.mem_cons_of_mem f hg)) hrest
      cases hpair
      cases h
      refine ⟨rfl, bareElement n f.value.glyphs tree, .cons hn htree, ?_⟩
      rw [FlatValue.element_datum, Except.ok.injEq] at hmarkup
      rw [print_bareElement, hn, hmarkup]

/-- Fields whose names markup allows can be written. -/
theorem exists_fieldParts {fields : List FlatField} (hnames : ∀ f ∈ fields, IsFieldName f.name)
    (hallowed : ∀ f ∈ fields, ∃ n : Name, n.chars = f.name.toList) :
    ∃ text, fieldParts (fields.map fun f => (f.name, f.value.datum)) = .ok ([], text) := by
  induction fields with
  | nil => exact ⟨[], by rw [List.map_nil, fieldParts]⟩
  | cons f fields ih =>
      obtain ⟨later, hlater⟩ := ih (fun g hg => hnames g (List.mem_cons_of_mem f hg))
        fun g hg => hallowed g (List.mem_cons_of_mem f hg)
      obtain ⟨n, hn⟩ := hallowed f List.mem_cons_self
      rw [List.map_cons, fieldParts, fieldPart_eq (hnames f List.mem_cons_self),
        checkName_of_name hn, hlater]
      simp only [bind, Except.bind, FlatValue.element_datum]
      exact ⟨_, rfl⟩

/-- The element of a record around those of its fields. -/
def recordElement (name : Name) (inner : Content) : Content :=
  if inner.print.isEmpty then .leaf [] (.empty (Tag.bare name)) (.text [])
  else .element [] (Tag.bare name) inner .none (.text [])

theorem print_recordElement (name : Name) (inner : Content) :
    (recordElement name inner).print = assembled name.chars [] inner.print := by
  rw [recordElement, assembled]
  split
  · simp [Content.print, Leaf.inside, Tag.inside, Tag.bare, Blanks.none]
  · simp [Content.print, Tag.inside, Tag.bare, Blanks.none]

namespace FlatRecord

variable (r : FlatRecord)

theorem root_datum :
    root r.datum = checkName r.name >>= fun key =>
      fieldParts (r.fields.map fun f => (f.name, f.value.datum)) >>= fun parts =>
        .ok (assembled key parts.1 parts.2) := by
  rw [datum, root]
  congr 1
  funext key
  rw [element]

/-- The names of the record and its fields are names that markup allows. -/
def Nameable : Prop :=
  ∀ name ∈ r.name :: r.fields.map FlatField.name, ∃ n : Name, n.chars = name.toList

/-- A record is written as an element with an element for each field. -/
theorem exists_tree_of_write {text : String} (h : write r.datum = .ok text) :
    ∃ (name : Name) (inner : Content), FieldElements r.fields inner ∧
      (recordElement name inner).print = text.toList := by
  have hroot : root r.datum = .ok text.toList := by
    rw [write] at h
    cases hwritten : root r.datum with
    | error cause =>
        rw [hwritten] at h
        cases h
    | ok cs =>
        rw [hwritten] at h
        cases h
        rw [String.toList_ofList]
  rw [root_datum] at hroot
  obtain ⟨key, hkey, hbelow⟩ := bind_eq_ok_iff.mp hroot
  obtain ⟨⟨attributes, content⟩, hparts, hpair⟩ := bind_eq_ok_iff.mp hbelow
  obtain ⟨rfl, name, hname⟩ := exists_name_of_checkName r.named hkey
  obtain ⟨rfl, inner, hinner, rfl⟩ := fieldElements_of_fieldParts r.fieldsNamed hparts
  refine ⟨name, inner, hinner, ?_⟩
  rw [print_recordElement, hname]
  exact Except.ok.inj hpair

theorem exists_write (h : r.Nameable) : ∃ text, write r.datum = .ok text := by
  obtain ⟨name, hname⟩ := h r.name List.mem_cons_self
  obtain ⟨text, htext⟩ := exists_fieldParts r.fieldsNamed fun f hf =>
    h f.name (List.mem_cons_of_mem _ (List.mem_map_of_mem hf))
  rw [write, root_datum, checkName_of_name hname, htext]
  exact ⟨_, rfl⟩

end FlatRecord

end Courier.Xml
