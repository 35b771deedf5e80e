import Courier.Text.Blank
import Courier.Xml.Escape
import Courier.Xml.Printer
import Mathlib.Data.List.Basic
/-!
Character data: each character of a text stands for itself or is written as a reference, by one of
the five names or by its number.  However the characters are written, resolving the references gives
them back, and trimming takes away the blanks that stand for themselves at the two ends.
-/
namespace Courier.Xml

/-- The two ways to write a number in a reference. -/
inductive Radix
  | decimal
  | hexadecimal
deriving Repr, DecidableEq

namespace Radix

def base : Radix → Nat
  | decimal => 10
  | hexadecimal => 16

/-- What stands between `#` and the digits. -/
def mark : Radix → List Char
  | decimal => []
  | hexadecimal => ['x']

/-- The number that digits are written for, the highest of them first. -/
def number? (radix : Radix) (digits : List Char) : Option Nat :=
  (digits.mapM (radixDigit? radix.base)).map fun ds => ds.foldl (fun n d => radix.base * n + d) 0

end Radix

/-- A way to write a character in a text. -/
inductive Spells : Char → List Char → Prop
  | itself {c : Char} (hbracket : c ≠ '<') (hsign : c ≠ '&') : Spells c [c]
  | byName {c : Char} {name : List Char} (hname : (name, c) ∈ named) :
      Spells c ('&' :: (name ++ [';']))
  | byNumber {c : Char} (radix : Radix) {digits : List Char} (hne : digits ≠ [])
      (hdigits : radix.number? digits = some c.toNat) (hc : c.toNat ≠ 0) :
      Spells c ('&' :: '#' :: (radix.mark ++ digits ++ [';']))

/-- A character together with the way it is written. -/
structure Glyph where
  char : Char
  spelling : List Char
  spells : Spells char spelling

def spell (glyphs : List Glyph) : List Char :=
  glyphs.flatMap Glyph.spelling

@[simp] theorem spell_nil : spell [] = [] := rfl

@[simp] theorem spell_cons (g : Glyph) (glyphs : List Glyph) :
    spell (g :: glyphs) = g.spelling ++ spell glyphs := rfl

@[simp] theorem spell_append (front back : List Glyph) :
    spell (front ++ back) = spell front ++ spell back :=
  List.flatMap_append

/-! ### References -/

variable {c : Char}

/-- Further digits make a number no smaller. -/
theorem le_foldl_digits {α : Type} {base : Nat} (hbase : 0 < base) (value : α → Nat)
    (digits : List α) (n : Nat) : n ≤ digits.foldl (fun n d => base * n + value d) n := by
  induction digits generalizing n with
  | nil => exact Nat.le_refl n
  | cons d digits ih =>
      have hstep : n ≤ base * n + value d := Nat.le_add_right_of_le (Nat.le_mul_of_pos_left n hbase)
      exact Nat.le_trans hstep (ih (base * n + value d))

/-- Digits are read as their number, as long as it fits into 32 bits. -/
theorem readRadix_eq {base : Nat} (hbase : 0 < base) {digits : List Char} {ds : List Nat}
    (hdigits : digits.mapM (radixDigit? base) = some ds) (n : Nat)
    (hmax : ds.foldl (fun n d => base * n + d) n ≤ Decimal.max32) :
    readRadix base n digits = .ok (ds.foldl (fun n d => base * n + d) n) := by
  induction digits generalizing n ds with
  | nil =>
      cases hdigits
      rfl
  | cons c digits ih =>
      rw [List.mapM_cons] at hdigits
      obtain ⟨d, hd, hrest⟩ := Option.bind_eq_some_iff.mp hdigits
      obtain ⟨ds, hds, hcons⟩ := Option.bind_eq_some_iff.mp hrest
      cases hcons
      rw [List.foldl_cons] at hmax ⊢
      have hstep : base * n + d ≤ Decimal.max32 := Nat.le_trans (le_foldl_digits hbase id ds _) hmax
      simp only [readRadix, hd, if_pos hstep]
      exact ih hds _ hmax

theorem forall_digit_of_mapM {base : Nat} {digits : List Char} {ds : List Nat}
    (hdigits : digits.mapM (radixDigit? base) = some ds) :
    ∀ c ∈ digits, (radixDigit? base c).isSome = true := by
  induction digits generalizing ds with
  | nil => exact fun c hc => nomatch hc
  | cons c digits ih =>
      rw [List.mapM_cons] at hdigits
      obtain ⟨d, hd, hrest⟩ := Option.bind_eq_some_iff.mp hdigits
      obtain ⟨ds, hds, -⟩ := Option.bind_eq_some_iff.mp hrest
      intro e he
      rcases List.mem_cons.mp he with rfl | hmem
      · rw [hd]
        rfl
      · exact ih hds e hmem

theorem ne_of_radixDigit {base : Nat} {c d : Char} (hd : (radixDigit? base d).isSome = false)
    (hc : (radixDigit? base c).isSome = true) : c ≠ d := by
  rintro rfl
  rw [hd] at hc
  cases hc

theorem readNumber_eq {base n : Nat} (hbase : 0 < base) {digits : List Char} (hne : digits ≠ [])
    (hdigits : (digits.mapM (radixDigit? base)).map
      (fun ds => ds.foldl (fun n d => base * n + d) 0) = some n) (hmax : n ≤ Decimal.max32) :
    readNumber base digits = .ok n := by
  obtain ⟨ds, hds, rfl⟩ := Option.map_eq_some_iff.mp hdigits
  obtain ⟨d, digits, rfl⟩ := List.exists_cons_of_ne_nil hne
  have hd : (radixDigit? base d).isSome = true := forall_digit_of_mapM hds d List.mem_cons_self
  have hsign : ∀ b, ∀ s ∈ ['+', '-'], (radixDigit? b s).isSome = false := by
    intro b s hs
    simp only [List.mem_cons, List.not_mem_nil, or_false] at hs
    rcases hs with rfl | rfl <;> rfl
  have hplus : d ≠ '+' := ne_of_radixDigit (hsign base _ (by decide)) hd
  have hminus : d ≠ '-' := ne_of_radixDigit (hsign base _ (by decide)) hd
  rw [readNumber, if_neg (by rintro (h | h); exacts [hplus h, hminus h])]
  exact readRadix_eq hbase hds 0 hmax

theorem toNat_le_max32 (c : Char) : c.toNat ≤ Decimal.max32 :=
  Nat.le_sub_one_of_lt c.val.toNat_lt

/-- A character is read by its number. -/
theorem readCharacter_eq (radix : Radix) {digits : List Char} (hne : digits ≠ [])
    (hdigits : radix.number? digits = some c.toNat) (hc : c.toNat ≠ 0) :
    readCharacter (radix.mark ++ digits) = .ok c := by
  have hnumber : readNumber radix.base digits = .ok c.toNat :=
    readNumber_eq (by cases radix <;> decide) hne hdigits (toNat_le_max32 c)
  have hvalid : c.toNat.isValidChar := c.valid
  unfold readCharacter
  cases radix with
  | hexadecimal =>
      simp only [Radix.mark, List.cons_append, List.nil_append]
      rw [show readNumber 16 digits = .ok c.toNat from hnumber]
      simp [bind, Except.bind, hc, hvalid]
  | decimal =>
      -- decimal digits do not begin with the mark of the others
      obtain ⟨d, digits, rfl⟩ := List.exists_cons_of_ne_nil hne
      obtain ⟨ds, hds, -⟩ := Option.map_eq_some_iff.mp hdigits
      have hmark : d ≠ 'x' :=
        ne_of_radixDigit (by decide) (forall_digit_of_mapM hds d List.mem_cons_self)
      simp only [Radix.mark, List.nil_append]
      split
      · rename_i h
        exact absurd (List.cons.inj h).1 hmark
      · rw [show readNumber 10 (d :: digits) = .ok c.toNat from hnumber]
        simp [bind, Except.bind, hc, hvalid]

/-- The signs that mean something in character data. -/
def isSign (c : Char) : Bool :=
  c == ';' || c == '&' || c == '<'

/-- What stands between the signs of a reference has none of them. -/
theorem splitReference_eq {name : List Char} (hname : ∀ d ∈ name, isSign d = false)
    (rest : List Char) : splitReference (name ++ ';' :: rest) = some (name, rest) := by
  have hall : ∀ d ∈ name, (d != ';' && d != '&') = true := by
    intro d hd
    have hsign := hname d hd
    simp only [isSign, Bool.or_eq_false_iff, beq_eq_false_iff_ne] at hsign
    simp [hsign.1.1, hsign.1.2]
  have htake : (name ++ ';' :: rest).takeWhile (fun d => d != ';' && d != '&') = name := by
    rw [List.takeWhile_append_of_pos hall]
    simp
  rw [splitReference, htake]
  simp

theorem named_chars {name : List Char} (hname : (name, c) ∈ named) :
    (∀ d ∈ name, isSign d = false) ∧ (∀ start, resolve start name = .ok c) := by
  simp only [named, List.mem_cons, Prod.mk.injEq, List.not_mem_nil, or_false] at hname
  rcases hname with ⟨rfl, rfl⟩ | ⟨rfl, rfl⟩ | ⟨rfl, rfl⟩ | ⟨rfl, rfl⟩ | ⟨rfl, rfl⟩
  all_goals exact ⟨by simp [isSign], fun start => rfl⟩

theorem number_chars (radix : Radix) {digits : List Char} {n : Nat}
    (hdigits : radix.number? digits = some n) :
    ∀ d ∈ '#' :: (radix.mark ++ digits), isSign d = false := by
  obtain ⟨ds, hds, -⟩ := Option.map_eq_some_iff.mp hdigits
  intro d hd
  rcases List.mem_cons.mp hd with rfl | hd
  · decide
  · rcases List.mem_append.mp hd with hmark | hdigit
    · cases radix with
      | decimal => cases hmark
      | hexadecimal =>
          rw [List.mem_singleton.mp hmark]
          decide
    · have hisDigit := forall_digit_of_mapM hds d hdigit
      have hsemicolon : d ≠ ';' := ne_of_radixDigit rfl hisDigit
      have hampersand : d ≠ '&' := ne_of_radixDigit rfl hisDigit
      have hbracket : d ≠ '<' := ne_of_radixDigit rfl hisDigit
      simp [isSign, hsemicolon, hampersand, hbracket]

/-- A reference gives its character, and reading goes on behind it. -/
theorem unescapeFrom_reference {name : List Char} (hname : ∀ d ∈ name, isSign d = false)
    (hresolve : ∀ start, resolve start name = .ok c) (offset fuel : Nat) (rest : List Char) :
    unescapeFrom offset (fuel + 1) ('&' :: (name ++ ';' :: rest)) =
      (unescapeFrom (offset + octetCount name + 2) fuel rest).map (c :: ·) := by
  rw [unescapeFrom, if_pos rfl, splitReference_eq hname]
  simp only [hresolve, bind, Except.bind]
  cases unescapeFrom (offset + octetCount name + 2) fuel rest <;> rfl

theorem unescapeFrom_itself (hsign : c ≠ '&') (offset fuel : Nat) (rest : List Char) :
    unescapeFrom offset (fuel + 1) (c :: rest) =
      (unescapeFrom (offset + c.utf8Size) fuel rest).map (c :: ·) := by
  rw [unescapeFrom, if_neg hsign]

/-- However a character is written, it is read back. -/
theorem unescapeFrom_spelling {spelling : List Char} (h : Spells c spelling)
    (offset fuel : Nat) (rest : List Char) : ∃ offset',
      unescapeFrom offset (fuel + 1) (spelling ++ rest) =
        (unescapeFrom offset' fuel rest).map (c :: ·) := by
  cases h with
  | itself hbracket hsign => exact ⟨_, unescapeFrom_itself hsign offset fuel rest⟩
  | byName hname =>
      obtain ⟨hchars, hresolve⟩ := named_chars hname
      have hread := unescapeFrom_reference hchars hresolve offset fuel rest
      exact ⟨_, by simpa using hread⟩
  | @byNumber radix digits hne hdigits hc =>
      have hresolve : ∀ start, resolve start ('#' :: (radix.mark ++ digits)) = .ok c := by
        intro start
        rw [resolve, readCharacter_eq radix hne hdigits hc]
        rfl
      have hread := unescapeFrom_reference (number_chars radix hdigits) hresolve offset fuel rest
      exact ⟨_, by simpa using hread⟩

/-- However a character is written, no bracket opens there. -/
theorem Spells.ne_bracket {spelling : List Char} (h : Spells c spelling) :
    ∀ d ∈ spelling, d ≠ '<' := by
  have hreference : ∀ name : List Char, (∀ d ∈ name, isSign d = false) →
      ∀ d ∈ '&' :: (name ++ [';']), d ≠ '<' := by
    intro name hname d hd
    rcases List.mem_cons.mp hd with rfl | hd
    · decide
    · rcases List.mem_append.mp hd with hmem | hlast
      · rintro rfl
        cases hname _ hmem
      · rw [List.mem_singleton.mp hlast]
        decide
  cases h with
  | itself hbracket hsign =>
      intro d hd
      rwa [List.mem_singleton.mp hd]
  | byName hname => exact hreference _ (named_chars hname).1
  | byNumber radix hne hdigits hc => exact hreference _ (number_chars radix hdigits)

theorem ne_bracket_of_mem_spell (glyphs : List Glyph) : ∀ c ∈ spell glyphs, c ≠ '<' := by
  intro c hc
  obtain ⟨g, -, hmem⟩ := List.mem_flatMap.mp hc
  exact g.spells.ne_bracket c hmem

theorem Spells.length_pos {spelling : List Char} (h : Spells c spelling) : 0 < spelling.length := by
  cases h <;> exact Nat.succ_pos _

theorem length_le_length_spell (glyphs : List Glyph) : glyphs.length ≤ (spell glyphs).length := by
  induction glyphs with
  | nil => exact Nat.le_refl 0
  | cons g glyphs ih =>
      have hpos : 0 < g.spelling.length := g.spells.length_pos
      rw [spell_cons, List.length_append, List.length_cons]
      omega

/-- Nothing is written for no characters only. -/
theorem isEmpty_spell (glyphs : List Glyph) : (spell glyphs).isEmpty = glyphs.isEmpty := by
  cases glyphs with
  | nil => rfl
  | cons g glyphs =>
      obtain ⟨c, more, hspelling⟩ := List.exists_cons_of_length_pos g.spells.length_pos
      rw [spell_cons, hspelling]
      rfl

theorem unescapeFrom_spell (glyphs : List Glyph) (offset fuel : Nat)
    (hfuel : glyphs.length ≤ fuel) :
    unescapeFrom offset fuel (spell glyphs) = .ok (glyphs.map Glyph.char) := by
  induction glyphs generalizing offset fuel with
  | nil => cases fuel <;> rfl
  | cons g glyphs ih =>
      obtain ⟨fuel, rfl⟩ := Nat.exists_eq_add_one_of_ne_zero (Nat.ne_zero_of_lt hfuel)
      obtain ⟨offset', hread⟩ := unescapeFrom_spelling g.spells offset fuel (spell glyphs)
      rw [spell_cons, hread, ih offset' fuel (Nat.le_of_succ_le_succ hfuel)]
      rfl

/-- Resolving the references of a text gives the characters that were written. -/
theorem unescape_spell (glyphs : List Glyph) :
    unescape (spell glyphs) = .ok (glyphs.map Glyph.char) :=
  unescapeFrom_spell glyphs 0 _ (length_le_length_spell glyphs)

/-! ### Blanks -/

/-- A blank that stands for itself; only these are trimmed. -/
def Glyph.isBlank (g : Glyph) : Bool :=
  g.spelling.all Text.isMarkupBlank

/-- Character data without the blanks at its two ends. -/
def trimGlyphs (glyphs : List Glyph) : List Glyph :=
  ((glyphs.dropWhile Glyph.isBlank).reverse.dropWhile Glyph.isBlank).reverse

theorem dropWhile_flatMap {α β : Type} {p : α → Bool} {q : β → Bool} {f : α → List β}
    (hall : ∀ a, p a = true → ∀ b ∈ f a, q b = true)
    (hhead : ∀ a, p a = false → ∃ b more, f a = b :: more ∧ q b = false) (as : List α) :
    (as.flatMap f).dropWhile q = (as.dropWhile p).flatMap f := by
  induction as with
  | nil => rfl
  | cons a as ih =>
      rw [List.flatMap_cons]
      cases hp : p a with
      | true =>
          rw [List.dropWhile_append_of_pos (hall a hp), List.dropWhile_cons_of_pos hp, ih]
      | false =>
          obtain ⟨b, more, hf, hq⟩ := hhead a hp
          rw [hf, List.cons_append, List.dropWhile_cons_of_neg (by simp [hq]),
            List.dropWhile_cons_of_neg (by simp [hp]), List.flatMap_cons, hf, List.cons_append]

theorem reverse_reference (cs : List Char) :
    ('&' :: (cs ++ [';'])).reverse = ';' :: (cs.reverse ++ ['&']) := by
  simp

/-- What is written for a character that is not trimmed has no blank at its ends. -/
theorem Glyph.ends_of_not_isBlank {g : Glyph} (h : g.isBlank = false) :
    (∃ c more, g.spelling = c :: more ∧ Text.isMarkupBlank c = false) ∧
      ∃ c more, g.spelling.reverse = c :: more ∧ Text.isMarkupBlank c = false := by
  obtain ⟨char, spelling, hspells⟩ := g
  cases hspells with
  | itself hbracket hsign =>
      have hchar : Text.isMarkupBlank char = false := by simpa [Glyph.isBlank] using h
      exact ⟨⟨char, [], rfl, hchar⟩, char, [], rfl, hchar⟩
  | byName hname => exact ⟨⟨'&', _, rfl, rfl⟩, ';', _, reverse_reference _, rfl⟩
  | byNumber radix hne hdigits hc =>
      exact ⟨⟨'&', _, rfl, rfl⟩, ';', _, reverse_reference ('#' :: _), rfl⟩

theorem forall_blank_of_isBlank {g : Glyph} (h : g.isBlank = true) :
    ∀ c ∈ g.spelling, Text.isMarkupBlank c = true :=
  List.all_eq_true.mp h

/-- Trimming what is written takes away the blanks that stand for themselves. -/
theorem stripBy_spell (glyphs : List Glyph) :
    Text.stripBy Text.isMarkupBlank (spell glyphs) = spell (trimGlyphs glyphs) := by
  have hfront : (spell glyphs).dropWhile Text.isMarkupBlank =
      spell (glyphs.dropWhile Glyph.isBlank) :=
    dropWhile_flatMap (fun _ => forall_blank_of_isBlank)
      (fun _ hg => (Glyph.ends_of_not_isBlank hg).1) glyphs
  have hback : ∀ gs : List Glyph, (spell gs).reverse.dropWhile Text.isMarkupBlank =
      (spell (gs.reverse.dropWhile Glyph.isBlank).reverse).reverse := by
    intro gs
    simp only [spell, List.reverse_flatMap, List.reverse_reverse]
    refine dropWhile_flatMap ?_ (fun _ hg => (Glyph.ends_of_not_isBlank hg).2) gs.reverse
    intro g hg c hc
    exact forall_blank_of_isBlank hg c (List.mem_reverse.mp hc)
  rw [Text.stripBy, hfront, hback, List.reverse_reverse]
  rfl

theorem dropWhile_of_head {α : Type} {p : α → Bool} {as : List α}
    (h : ∀ a ∈ as.head?, p a = false) : as.dropWhile p = as := by
  cases as with
  | nil => rfl
  | cons a as => exact List.dropWhile_cons_of_neg (by simp [h a rfl])

/-- Character data with no blanks at its ends is left as it is. -/
theorem trimGlyphs_of_ends {glyphs : List Glyph}
    (hfront : ∀ g ∈ glyphs.head?, g.isBlank = false)
    (hback : ∀ g ∈ glyphs.getLast?, g.isBlank = false) : trimGlyphs glyphs = glyphs := by
  rw [trimGlyphs, dropWhile_of_head hfront,
    dropWhile_of_head (by rwa [List.head?_reverse]), List.reverse_reverse]

/-- Only a blank character can be trimmed. -/
theorem isBlank_eq_false_of_char {g : Glyph} (h : Text.isMarkupBlank g.char = false) :
    g.isBlank = false := by
  obtain ⟨char, spelling, hspells⟩ := g
  cases hspells with
  | itself hbracket hsign =>
      rw [Glyph.isBlank, List.all_cons, h]
      rfl
  | byName hname => rfl
  | byNumber radix hne hdigits hc => rfl

/-- A text without white space at its ends. -/
def IsTrimmed (s : String) : Prop :=
  (∀ c ∈ s.toList.head?, Text.isMarkupBlank c = false) ∧
    ∀ c ∈ s.toList.getLast?, Text.isMarkupBlank c = false

theorem isTrimmed_of_ends {s : String} {first last : Char} (hhead : s.toList.head? = some first)
    (hlast : s.toList.getLast? = some last) (hfirst : Text.isMarkupBlank first = false)
    (hend : Text.isMarkupBlank last = false) : IsTrimmed s := by
  constructor
  · intro c hc
    obtain rfl : first = c := Option.some.inj (hhead.symm.trans hc)
    exact hfirst
  · intro c hc
    obtain rfl : last = c := Option.some.inj (hlast.symm.trans hc)
    exact hend

theorem trimGlyphs_of_isTrimmed {glyphs : List Glyph}
    (h : IsTrimmed (String.ofList (glyphs.map Glyph.char))) : trimGlyphs glyphs = glyphs := by
  rw [IsTrimmed, String.toList_ofList, List.head?_map, List.getLast?_map] at h
  refine trimGlyphs_of_ends ?_ ?_
  · intro g hg
    exact isBlank_eq_false_of_char (h.1 g.char (Option.mem_map_of_mem _ hg))
  · intro g hg
    exact isBlank_eq_false_of_char (h.2 g.char (Option.mem_map_of_mem _ hg))

/-! ### Escaping -/

/-- What escaping makes of a character is a way to write it. -/
theorem spells_escapeChar (c : Char) : Spells c (escapeChar .text c) := by
  have hname : ∀ name : String, (name.toList, c) ∈ named →
      Spells c ('&' :: (name.toList ++ [';'])) := fun _ h => .byName h
  by_cases hopen : c = '<'
  · subst hopen
    exact hname "lt" (by decide)
  · by_cases hclose : c = '>'
    · subst hclose
      exact hname "gt" (by decide)
    · by_cases hsign : c = '&'
      · subst hsign
        exact hname "amp" (by decide)
      · rw [escapeChar, if_neg hopen, if_neg hclose, if_neg hsign, if_neg (by simp)]
        exact .itself hopen hsign

/-- A character, escaped where it means something in a text. -/
def Glyph.escaped (c : Char) : Glyph :=
  ⟨c, escapeChar .text c, spells_escapeChar c⟩

theorem spell_escaped (s : String) : spell (s.toList.map Glyph.escaped) = escape .text s := by
  rw [spell, List.flatMap_map]
  rfl

theorem map_char_escaped (cs : List Char) : (cs.map Glyph.escaped).map Glyph.char = cs := by
  rw [List.map_map]
  exact List.map_id cs

end Courier.Xml
