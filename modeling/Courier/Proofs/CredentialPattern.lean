import Courier.Redaction.Credential
import Mathlib.Data.List.Infix
import Mathlib.Data.List.TakeWhile
/-!
The pattern of a credential in a text, part by part: a keyword in any letter case, a separator, which
has a sign with blanks and quotes around it or is of blanks only, and a value.  The place that is found
at the front of a text is that of a match with the separator that is tried first and the longest value.
-/
namespace Courier.Redaction.Credential

variable {cs word separator value rest : List Char}

/-! ### The parts of the pattern -/

def IsKeyword (word : List Char) : Prop :=
  word.map fold ∈ keywords

/-- A sign; blanks and one quote may stand on each side of it. -/
inductive IsSign : List Char → Prop
  | intro {quote quote' : Option Char} {blanks blanks' : List Char} {sign : Char}
      (hquote : ∀ c ∈ quote, isQuote c = true) (hblanks : ∀ c ∈ blanks, Text.isBlank c = true)
      (hsign : sign = '=' ∨ sign = ':') (hblanks' : ∀ c ∈ blanks', Text.isBlank c = true)
      (hquote' : ∀ c ∈ quote', isQuote c = true) :
      IsSign (quote.toList ++ (blanks ++ sign :: (blanks' ++ quote'.toList)))

def IsBlanks (separator : List Char) : Prop :=
  separator ≠ [] ∧ ∀ c ∈ separator, Text.isBlank c = true

def IsValue (value : List Char) : Prop :=
  3 ≤ value.length ∧ ∀ c ∈ value, isValueChar c = true

/-- A way to match the pattern at the front of a text. -/
structure Matches (cs word separator value rest : List Char) : Prop where
  text_eq : cs = word ++ (separator ++ (value ++ rest))
  isKeyword : IsKeyword word
  isSeparator : IsSign separator ∨ IsBlanks separator
  isValue : IsValue value

/-- The way that a search takes: with a sign if there is one like that, and with the longest value. -/
structure Takes (cs word separator value rest : List Char) : Prop
    extends Matches cs word separator value rest where
  prefers : IsSign separator ∨ ∀ word' separator' value' rest',
    Matches cs word' separator' value' rest' → ¬ IsSign separator'
  longest : ∀ c ∈ rest.head?, isValueChar c = false

/-! ### Classes of characters -/

/-- May the character stand in a separator? -/
def isSeparatorChar (c : Char) : Bool :=
  Text.isBlank c || isQuote c || c == '=' || c == ':'

theorem of_sign {c : Char} (h : c = '=' ∨ c = ':') :
    Text.isBlank c = false ∧ isQuote c = false := by
  rcases h with rfl | rfl
  · decide
  · decide

theorem isBlank_of_isQuote {c : Char} (h : isQuote c = true) : Text.isBlank c = false := by
  simp only [isQuote, Bool.or_eq_true, beq_iff_eq] at h
  rcases h with rfl | rfl
  · rfl
  · rfl

theorem isQuote_of_isBlank {c : Char} (h : Text.isBlank c = true) : isQuote c = false := by
  by_contra hquote
  rw [Bool.not_eq_false] at hquote
  rw [isBlank_of_isQuote hquote] at h
  exact Bool.false_ne_true h

theorem of_isValueChar {c : Char} (h : isValueChar c = true) :
    Text.isBlank c = false ∧ isQuote c = false := by
  simp only [isValueChar, Bool.and_eq_true, Bool.not_eq_true'] at h
  exact ⟨h.1.1.1.1, h.1.1.1.2⟩

/-- Letter case is all that makes a character count as another. -/
theorem fold_of_isBlank {c : Char} (h : Text.isBlank c = true) : fold c = c := by
  have hA : 'A'.val.toNat = 65 := rfl
  have hZ : 'Z'.val.toNat = 90 := rfl
  have hkelvin : c ≠ '\u212A' := by
    rintro rfl
    exact absurd h (by decide)
  have hlong : c ≠ '\u017F' := by
    rintro rfl
    exact absurd h (by decide)
  rw [fold, if_neg hkelvin, if_neg hlong]
  unfold Char.toLower
  rw [dif_neg]
  simp only [ge_iff_le, UInt32.le_iff_toNat_le]
  simp only [Text.isBlank, Char.toNat, Bool.or_eq_true, Bool.and_eq_true, decide_eq_true_eq,
    beq_iff_eq] at h
  omega

theorem fold_of_isValueChar_eq_false {c : Char} (h : isValueChar c = false) : fold c = c := by
  by_cases hblank : Text.isBlank c = true
  · exact fold_of_isBlank hblank
  · simp only [isValueChar, isQuote, hblank, Bool.not_false, Bool.true_and, Bool.not_or,
      Bool.and_eq_false_iff, Bool.not_eq_false', bne_eq_false_iff_eq, beq_iff_eq] at h
    rcases h with (((rfl | rfl) | rfl) | rfl) | rfl <;> rfl

/-- What counts as a character of a keyword stands in values and in no separator. -/
theorem of_fold_mem_keywords {c : Char} (h : fold c ∈ keywords.flatten) :
    isValueChar c = true ∧ isSeparatorChar c = false := by
  have hletters : ∀ d ∈ keywords.flatten, isValueChar d = true :=
    List.all_eq_true.mp (by decide)
  have hvalue : isValueChar c = true := by
    by_contra hnot
    rw [Bool.not_eq_true] at hnot
    have hself := hletters _ h
    rw [fold_of_isValueChar_eq_false hnot, hnot] at hself
    exact Bool.false_ne_true hself
  have hsigns : fold '=' ∉ keywords.flatten ∧ fold ':' ∉ keywords.flatten := by decide
  have hequals : c ≠ '=' := fun heq => hsigns.1 (heq ▸ h)
  have hcolon : c ≠ ':' := fun heq => hsigns.2 (heq ▸ h)
  obtain ⟨hblank, hquote⟩ := of_isValueChar hvalue
  exact ⟨hvalue, by simp [isSeparatorChar, hblank, hquote, hequals, hcolon]⟩

/-! ### Keywords -/

theorem IsKeyword.chars (h : IsKeyword word) :
    ∀ c ∈ word, isValueChar c = true ∧ isSeparatorChar c = false := by
  intro c hc
  exact of_fold_mem_keywords (List.mem_flatten_of_mem h (List.mem_map_of_mem hc))

theorem IsKeyword.five_le_length (h : IsKeyword word) : 5 ≤ word.length := by
  have hlengths : ∀ known ∈ keywords, 5 ≤ known.length := by decide
  simpa using hlengths _ h

theorem IsKeyword.ne_nil (h : IsKeyword word) : word ≠ [] := by
  rintro rfl
  exact absurd h.five_le_length (by decide)

/-- No keyword has another one in it. -/
theorem IsKeyword.eq_nil_of_infix {before after : List Char} (h : IsKeyword word)
    (hmore : IsKeyword (before ++ (word ++ after))) : before = [] ∧ after = [] := by
  have hinfix : ∀ known ∈ keywords, ∀ other ∈ keywords, known <:+: other → known = other := by
    decide
  have hmap : (before ++ (word ++ after)).map fold =
      before.map fold ++ word.map fold ++ after.map fold := by simp
  have hsame := hinfix _ h _ hmore ⟨_, _, hmap.symm⟩
  have hlength := congrArg List.length hsame
  simp only [List.length_map, List.length_append] at hlength
  constructor
  · exact List.eq_nil_of_length_eq_zero (by omega)
  · exact List.eq_nil_of_length_eq_zero (by omega)

/-- A text begins with one keyword at most. -/
theorem IsKeyword.eq_of_append_eq {word' rest' : List Char} (h : IsKeyword word)
    (h' : IsKeyword word') (heq : word ++ rest = word' ++ rest') : word = word' := by
  rcases List.append_eq_append_iff.mp heq with ⟨more, rfl, _⟩ | ⟨more, rfl, _⟩
  · rw [(@IsKeyword.eq_nil_of_infix word [] more h h').2, List.append_nil]
  · rw [(@IsKeyword.eq_nil_of_infix word' [] more h' h).2, List.append_nil]

theorem exists_of_keywordLength? {n : Nat} (h : keywordLength? cs = some n) :
    ∃ word rest, cs = word ++ rest ∧ IsKeyword word ∧ word.length = n := by
  obtain ⟨known, hfind, rfl⟩ := Option.map_eq_some_iff.mp h
  have hfound := List.find?_some hfind
  have hprefix := List.isPrefixOf_iff_prefix.mp hfound
  have hknown : known = (cs.take known.length).map fold := by
    refine hprefix.eq_of_length_le ?_
    rw [List.length_map, List.length_take]
    exact Nat.min_le_left _ _
  have hlength := congrArg List.length hknown
  rw [List.length_map] at hlength
  refine ⟨_, _, (List.take_append_drop known.length cs).symm, ?_, hlength.symm⟩
  rw [IsKeyword, ← hknown]
  exact List.mem_of_find?_eq_some hfind

theorem keywordLength?_append (h : IsKeyword word) (rest : List Char) :
    keywordLength? (word ++ rest) = some word.length := by
  cases hlength : keywordLength? (word ++ rest) with
  | some n =>
      obtain ⟨found, behind, htext, hfound, rfl⟩ := exists_of_keywordLength? hlength
      rw [h.eq_of_append_eq hfound htext]
  | none =>
      have hself : (word.map fold).isPrefixOf
          (((word ++ rest).take (word.map fold).length).map fold) = true := by simp
      exact absurd hself (List.find?_eq_none.mp (Option.map_eq_none_iff.mp hlength) _ h)

/-! ### Separators and values -/

theorem forall_head?_append {p : Char → Prop} {front : List Char} (hfront : ∀ c ∈ front, p c)
    (hrest : ∀ c ∈ rest.head?, p c) : ∀ c ∈ (front ++ rest).head?, p c := by
  cases front with
  | nil => exact hrest
  | cons d front =>
      intro c hc
      obtain rfl := Option.some.inj hc
      exact hfront d List.mem_cons_self

theorem IsValue.head (h : IsValue value) (rest : List Char) :
    ∀ c ∈ (value ++ rest).head?, isValueChar c = true := by
  obtain ⟨hlength, hchars⟩ := h
  cases value with
  | nil => simp at hlength
  | cons c value =>
      intro d hd
      obtain rfl := Option.some.inj hd
      exact hchars c List.mem_cons_self

/-- A run of a class ends with the first character that is not in it. -/
theorem takeWhile_append_self {p : Char → Bool} {front : List Char} (hfront : ∀ c ∈ front, p c = true)
    (hrest : ∀ c ∈ rest.head?, p c = false) : (front ++ rest).takeWhile p = front := by
  have hnone : rest.takeWhile p = [] := by
    cases rest with
    | nil => rfl
    | cons c rest => simp [hrest c rfl]
  rw [List.takeWhile_append_of_pos hfront, hnone, List.append_nil]

theorem blankLength_append {blanks : List Char} (hblanks : ∀ c ∈ blanks, Text.isBlank c = true)
    (hrest : ∀ c ∈ rest.head?, Text.isBlank c = false) :
    blankLength (blanks ++ rest) = blanks.length := by
  rw [blankLength, takeWhile_append_self hblanks hrest]

theorem quoteLength_append {quote : Option Char} (hquote : ∀ c ∈ quote, isQuote c = true)
    (hrest : ∀ c ∈ rest.head?, isQuote c = false) :
    quoteLength (quote.toList ++ rest) = quote.toList.length := by
  cases quote with
  | some c => simp [quoteLength, hquote c rfl]
  | none =>
      cases rest with
      | nil => rfl
      | cons c rest => simp [quoteLength, hrest c rfl]

/-- A separator with a sign is passed over up to the value behind it. -/
theorem signLength?_append (hsign : IsSign separator)
    (hrest : ∀ c ∈ rest.head?, isValueChar c = true) :
    signLength? (separator ++ rest) = some separator.length := by
  obtain @⟨quote, quote', blanks, blanks', sign, hquote, hblanks, hsign, hblanks', hquote'⟩ := hsign
  obtain ⟨hnotBlank, hnotQuote⟩ := of_sign hsign
  have hfront : quoteLength (quote.toList ++ (blanks ++ sign :: (blanks' ++ (quote'.toList ++ rest)))) =
      quote.toList.length := by
    refine quoteLength_append hquote (forall_head?_append ?_ ?_)
    · exact fun c hc => isQuote_of_isBlank (hblanks c hc)
    · simpa using hnotQuote
  have hbefore : blankLength (blanks ++ sign :: (blanks' ++ (quote'.toList ++ rest))) =
      blanks.length := blankLength_append hblanks (by simpa using hnotBlank)
  have hafter : blankLength (blanks' ++ (quote'.toList ++ rest)) = blanks'.length := by
    refine blankLength_append hblanks' (forall_head?_append ?_ ?_)
    · intro c hc
      exact isBlank_of_isQuote (hquote' c (Option.mem_toList.mp hc))
    · exact fun c hc => (of_isValueChar (hrest c hc)).1
  have hback : quoteLength (quote'.toList ++ rest) = quote'.toList.length :=
    quoteLength_append hquote' fun c hc => (of_isValueChar (hrest c hc)).2
  have htext : quote.toList ++ (blanks ++ sign :: (blanks' ++ quote'.toList)) ++ rest =
      quote.toList ++ (blanks ++ sign :: (blanks' ++ (quote'.toList ++ rest))) := by simp
  rw [htext]
  simp only [signLength?, hfront, List.drop_left, hbefore, ← List.drop_drop, hafter, hback,
    if_pos hsign, List.length_append, List.length_cons, Option.some.injEq]
  omega

theorem exists_blanks (cs : List Char) : ∃ blanks rest, cs = blanks ++ rest ∧
    (∀ c ∈ blanks, Text.isBlank c = true) ∧ blankLength cs = blanks.length :=
  ⟨_, _, List.takeWhile_append_dropWhile.symm, fun _ hc => List.mem_takeWhile_imp hc, rfl⟩

theorem exists_quote (cs : List Char) : ∃ (quote : Option Char) (rest : List Char),
    cs = quote.toList ++ rest ∧ (∀ c ∈ quote, isQuote c = true) ∧
      quoteLength cs = quote.toList.length := by
  cases cs with
  | nil => exact ⟨none, [], rfl, by simp, rfl⟩
  | cons c rest =>
      by_cases hquote : isQuote c = true
      · exact ⟨some c, rest, rfl, by simpa using hquote, by simp [quoteLength, hquote]⟩
      · exact ⟨none, c :: rest, rfl, by simp, by simp [quoteLength, hquote]⟩

theorem Matches.separator_chars (h : Matches cs word separator value rest) :
    separator ≠ [] ∧ ∀ c ∈ separator, isSeparatorChar c = true := by
  rcases h.isSeparator with hsign | hblanks
  · obtain ⟨hquote, hblanks, hsign, hblanks', hquote'⟩ := hsign
    refine ⟨by simp, ?_⟩
    intro c hc
    simp only [List.mem_append, List.mem_cons, Option.mem_toList] at hc
    rcases hc with hc | hc | rfl | hc | hc
    · simp [isSeparatorChar, hquote c hc]
    · simp [isSeparatorChar, hblanks c hc]
    · simpa [isSeparatorChar, or_assoc] using .inr (.inr hsign)
    · simp [isSeparatorChar, hblanks' c hc]
    · simp [isSeparatorChar, hquote' c hc]
  · refine ⟨hblanks.1, ?_⟩
    intro c hc
    simp [isSeparatorChar, hblanks.2 c hc]

/-- What is passed over as a separator with a sign is one. -/
theorem exists_of_signLength? {n : Nat} (h : signLength? cs = some n) :
    ∃ separator rest, cs = separator ++ rest ∧ IsSign separator ∧ separator.length = n := by
  obtain ⟨quote, behind, rfl, hquote, hfront⟩ := exists_quote cs
  obtain ⟨blanks, signed, rfl, hblanks, hbefore⟩ := exists_blanks behind
  simp only [signLength?, hfront, List.drop_left, hbefore, ← List.drop_drop] at h
  cases signed with
  | nil => simp at h
  | cons sign rest =>
      by_cases hsign : sign = '=' ∨ sign = ':'
      · obtain ⟨blanks', quoted, rfl, hblanks', hafter⟩ := exists_blanks rest
        obtain ⟨quote', value, rfl, hquote', hback⟩ := exists_quote quoted
        simp only [if_pos hsign, hafter, List.drop_left, hback, Option.some.injEq] at h
        refine ⟨_, value, ?_, .intro hquote hblanks hsign hblanks' hquote', ?_⟩
        · simp
        · simp only [List.length_append, List.length_cons]
          omega
      · simp [hsign] at h

/-! ### What is found at the front of a text -/

/-- A value is taken to its end. -/
theorem placeAfter_append (hvalue : IsValue value) (hrest : ∀ c ∈ rest.head?, isValueChar c = false) :
    placeAfter word.length separator.length (word ++ (separator ++ (value ++ rest))) =
      some ⟨word.length + separator.length, value.length⟩ := by
  have hlength : valueLength? (value ++ rest) = some value.length := by
    rw [valueLength?, takeWhile_append_self hvalue.2 hrest]
    exact if_pos hvalue.1
  rw [placeAfter, ← List.drop_drop, List.drop_left, List.drop_left, hlength, Option.map_some]

theorem exists_matches_of_placeAfter {place : Place} (hword : IsKeyword word)
    (hseparator : IsSign separator ∨ IsBlanks separator)
    (h : placeAfter word.length separator.length (word ++ (separator ++ rest)) = some place) :
    ∃ value behind, Matches (word ++ (separator ++ rest)) word separator value behind := by
  obtain ⟨n, hn, -⟩ := Option.map_eq_some_iff.mp h
  rw [← List.drop_drop, List.drop_left, List.drop_left, valueLength?,
    Option.ite_none_right_eq_some] at hn
  refine ⟨rest.takeWhile isValueChar, rest.dropWhile isValueChar, ?_, hword, hseparator, hn.1,
    fun _ hc => List.mem_takeWhile_imp hc⟩
  rw [List.takeWhile_append_dropWhile]

/-- A place found behind a sign is that of a match with a sign. -/
theorem exists_matches_of_bySign {place : Place} (hword : IsKeyword word)
    (h : (signLength? rest).bind (fun n => placeAfter word.length n (word ++ rest)) = some place) :
    ∃ separator value behind, Matches (word ++ rest) word separator value behind ∧
      IsSign separator := by
  obtain ⟨n, hn, hplace⟩ := Option.bind_eq_some_iff.mp h
  obtain ⟨separator, behind, rfl, hsign, rfl⟩ := exists_of_signLength? hn
  obtain ⟨value, behind, hmatches⟩ := exists_matches_of_placeAfter hword (.inl hsign) hplace
  exact ⟨separator, value, behind, hmatches, hsign⟩

theorem exists_matches_of_atFront? {place : Place} (h : atFront? cs = some place) :
    ∃ word separator value rest, Matches cs word separator value rest := by
  obtain ⟨n, hn, h⟩ := Option.bind_eq_some_iff.mp h
  obtain ⟨word, rest, rfl, hword, rfl⟩ := exists_of_keywordLength? hn
  simp only [List.drop_left] at h
  cases hbySign : (signLength? rest).bind fun n => placeAfter word.length n (word ++ rest) with
  | some found =>
      obtain ⟨separator, value, behind, hmatches, -⟩ := exists_matches_of_bySign hword hbySign
      exact ⟨word, separator, value, behind, hmatches⟩
  | none =>
      obtain ⟨blanks, behind, rfl, hblanks, hlength⟩ := exists_blanks rest
      simp only [hbySign, hlength, Option.ite_none_left_eq_some] at h
      have hne : blanks ≠ [] := fun hnil => h.1 (hnil ▸ rfl)
      obtain ⟨value, behind, hmatches⟩ :=
        exists_matches_of_placeAfter hword (.inr ⟨hne, hblanks⟩) h.2
      exact ⟨word, blanks, value, behind, hmatches⟩

/-- What a search takes is what is found. -/
theorem Takes.atFront?_eq (h : Takes cs word separator value rest) :
    atFront? cs = some ⟨word.length + separator.length, value.length⟩ := by
  obtain ⟨⟨rfl, hword, hseparator, hvalue⟩, hprefers, hlongest⟩ := h
  have hplace := @placeAfter_append word separator value rest hvalue hlongest
  have hkeyword := keywordLength?_append hword (separator ++ (value ++ rest))
  simp only [atFront?, hkeyword, Option.bind_eq_bind, Option.bind_some, List.drop_left]
  rcases hprefers with hsign | hnone
  · rw [signLength?_append hsign (hvalue.head rest), Option.bind_some, hplace]
  · have hblanks : IsBlanks separator :=
      hseparator.resolve_left (hnone _ _ _ _ ⟨rfl, hword, hseparator, hvalue⟩)
    have hlength : blankLength (separator ++ (value ++ rest)) = separator.length :=
      blankLength_append hblanks.2 fun c hc => (of_isValueChar (hvalue.head rest c hc)).1
    have hbySign : (signLength? (separator ++ (value ++ rest))).bind (fun n =>
        placeAfter word.length n (word ++ (separator ++ (value ++ rest)))) = none := by
      by_contra hsome
      obtain ⟨place, hplace⟩ := Option.ne_none_iff_exists'.mp hsome
      obtain ⟨_, _, _, hmatches, hsign⟩ := exists_matches_of_bySign hword hplace
      exact hnone _ _ _ _ hmatches hsign
    have hne : separator.length ≠ 0 := fun hzero => hblanks.1 (List.eq_nil_of_length_eq_zero hzero)
    rw [hbySign]
    simp only [hlength, if_neg hne, hplace]

/-- A way to match with the separator that is tried first is one to take, with the longest value. -/
theorem Matches.takes (h : Matches cs word separator value rest)
    (hprefers : IsSign separator ∨ ∀ word' separator' value' rest',
      Matches cs word' separator' value' rest' → ¬ IsSign separator') :
    ∃ value rest, Takes cs word separator value rest := by
  obtain ⟨rfl, hword, hseparator, hvalue⟩ := h
  refine ⟨(value ++ rest).takeWhile isValueChar, (value ++ rest).dropWhile isValueChar,
    ⟨?_, hword, hseparator, ?_, fun _ hc => List.mem_takeWhile_imp hc⟩, hprefers, ?_⟩
  · rw [List.takeWhile_append_dropWhile]
  · rw [List.takeWhile_append_of_pos hvalue.2, List.length_append]
    exact Nat.le_add_right_of_le hvalue.1
  · intro c hc
    have hhead := List.head?_dropWhile_not isValueChar (value ++ rest)
    rw [Option.mem_def.mp hc] at hhead
    exact hhead

/-- If there is a way to match, there is one that a search takes. -/
theorem Matches.exists_takes (h : Matches cs word separator value rest) :
    ∃ word separator value rest, Takes cs word separator value rest := by
  by_cases hsigned : ∃ word separator value rest,
      Matches cs word separator value rest ∧ IsSign separator
  · obtain ⟨word, separator, value, rest, hmatches, hsign⟩ := hsigned
    obtain ⟨value, rest, htakes⟩ := hmatches.takes (.inl hsign)
    exact ⟨word, separator, value, rest, htakes⟩
  · obtain ⟨value, rest, htakes⟩ := h.takes
      (.inr fun word separator value rest hmatches hsign =>
        hsigned ⟨word, separator, value, rest, hmatches, hsign⟩)
    exact ⟨word, separator, value, rest, htakes⟩

/-- Nothing is found if there is no way to match. -/
theorem atFront?_eq_none_iff :
    atFront? cs = none ↔ ∀ word separator value rest, ¬ Matches cs word separator value rest := by
  constructor
  · intro hnone word separator value rest hmatches
    obtain ⟨_, _, _, _, htakes⟩ := hmatches.exists_takes
    rw [htakes.atFront?_eq] at hnone
    cases hnone
  · intro hno
    by_contra hsome
    obtain ⟨place, hplace⟩ := Option.ne_none_iff_exists'.mp hsome
    obtain ⟨word, separator, value, rest, hmatches⟩ := exists_matches_of_atFront? hplace
    exact hno word separator value rest hmatches

end Courier.Redaction.Credential
