import Courier.Proofs.CredentialPattern
/-!
Masking credentials in a text.  A search from the left divides a text into credentials and the
characters between them; masking replaces the values of these credentials and nothing else.  The search
divides the masked text in the same way, so masking it again changes nothing.
-/
namespace Courier.Redaction

namespace Credential

variable {cs before word separator value rest : List Char}

/-! ### The search -/

/-- A piece of a text: a credential in its parts, or a character that belongs to none. -/
inductive Piece
  | plain (c : Char)
  | credential (word separator value : List Char)

namespace Piece

def text : Piece → List Char
  | plain c => [c]
  | credential word separator value => word ++ (separator ++ value)

/-- The piece with the mask for a value. -/
def masked : Piece → Piece
  | plain c => plain c
  | credential word separator _ => credential word separator redacted.toList

end Piece

def textOf (pieces : List Piece) : List Char :=
  pieces.flatMap Piece.text

/-- A search from the left takes a credential where there is one, and goes on behind it. -/
inductive Search : List Char → List Piece → Prop
  | done : Search [] []
  | skip {c : Char} {rest : List Char} {pieces : List Piece}
      (hnone : ∀ word separator value behind, ¬ Matches (c :: rest) word separator value behind)
      (hrest : Search rest pieces) : Search (c :: rest) (.plain c :: pieces)
  | take {cs word separator value rest : List Char} {pieces : List Piece}
      (htakes : Takes cs word separator value rest) (hrest : Search rest pieces) :
      Search cs (.credential word separator value :: pieces)

variable {pieces pieces' : List Piece}

theorem textOf_credential :
    textOf (.credential word separator value :: pieces) =
      word ++ (separator ++ (value ++ textOf pieces)) := by
  simp [textOf, Piece.text]

theorem Search.textOf_eq (h : Search cs pieces) : textOf pieces = cs := by
  induction h with
  | done => rfl
  | @skip c rest pieces _ _ ih =>
      change c :: textOf pieces = c :: rest
      rw [ih]
  | take htakes _ ih => rw [textOf_credential, ih, htakes.text_eq]

theorem Matches.ne_nil (h : Matches cs word separator value rest) : cs ≠ [] := by
  rw [h.text_eq]
  exact List.append_ne_nil_of_left_ne_nil h.isKeyword.ne_nil _

theorem maskChars_nil : maskChars [] = [] := by
  rw [maskChars]
  split
  · rename_i hsome
    cases hsome
  · rfl

theorem maskChars_of_none {c : Char} (h : atFront? (c :: rest) = none) :
    maskChars (c :: rest) = c :: maskChars rest := by
  rw [maskChars]
  split
  · rename_i hsome
    rw [h] at hsome
    cases hsome
  · rfl

theorem maskChars_of_some {place : Place} (h : atFront? cs = some place) :
    maskChars cs = cs.take place.before ++ redacted.toList ++
      maskChars (cs.drop (place.before + place.length)) := by
  rw [maskChars]
  split
  · rename_i found hsome
    obtain rfl := Option.some.inj (h.symm.trans hsome)
    rfl
  · rename_i hnone
    rw [h] at hnone
    cases hnone

/-- Masking replaces the values of the credentials that the search finds. -/
theorem Search.maskChars_eq (h : Search cs pieces) :
    maskChars cs = textOf (pieces.map Piece.masked) := by
  induction h with
  | done => exact maskChars_nil
  | @skip c rest pieces hnone _ ih =>
      rw [maskChars_of_none (atFront?_eq_none_iff.mpr hnone), ih]
      rfl
  | @take cs word separator value rest pieces htakes _ ih =>
      have hbefore : cs.take (word.length + separator.length) = word ++ separator := by
        rw [htakes.text_eq, ← List.append_assoc, ← List.length_append, List.take_left]
      have hbehind : cs.drop (word.length + separator.length + value.length) = rest := by
        rw [htakes.text_eq, ← List.append_assoc, ← List.append_assoc, ← List.length_append,
          ← List.length_append, List.drop_left]
      rw [maskChars_of_some htakes.atFront?_eq, hbefore, hbehind, ih, List.map_cons, Piece.masked,
        textOf_credential]
      simp only [List.append_assoc]

theorem exists_search (cs : List Char) : ∃ pieces, Search cs pieces := by
  induction hlength : cs.length using Nat.strong_induction_on generalizing cs with
  | h n ih =>
      by_cases hmatch : ∃ word separator value rest, Matches cs word separator value rest
      · obtain ⟨_, _, _, _, hmatch⟩ := hmatch
        obtain ⟨word, separator, value, rest, htakes⟩ := hmatch.exists_takes
        have hrest : rest.length < n := by
          have hlong := htakes.isKeyword.five_le_length
          have htotal := congrArg List.length htakes.text_eq
          simp only [List.length_append] at htotal
          omega
        obtain ⟨pieces, hpieces⟩ := ih _ hrest rest rfl
        exact ⟨_, .take htakes hpieces⟩
      · cases cs with
        | nil => exact ⟨[], .done⟩
        | cons c rest =>
            obtain ⟨pieces, hpieces⟩ := ih rest.length (hlength ▸ Nat.lt_succ_self _) rest rfl
            exact ⟨_, .skip (fun _ _ _ _ h => hmatch ⟨_, _, _, _, h⟩) hpieces⟩

theorem Takes.unique {word' separator' value' rest' : List Char}
    (h : Takes cs word separator value rest) (h' : Takes cs word' separator' value' rest') :
    word = word' ∧ separator = separator' ∧ value = value' ∧ rest = rest' := by
  have hplace := Option.some.inj (h.atFront?_eq.symm.trans h'.atFront?_eq)
  rw [Place.mk.injEq] at hplace
  have htext := h.text_eq.symm.trans h'.text_eq
  obtain rfl := h.isKeyword.eq_of_append_eq h'.isKeyword htext
  have hbehind := List.append_cancel_left htext
  obtain ⟨hseparator, hbehind⟩ := List.append_inj hbehind (Nat.add_left_cancel hplace.1)
  obtain ⟨hvalue, hrest⟩ := List.append_inj hbehind hplace.2
  exact ⟨rfl, hseparator, hvalue, hrest⟩

/-- A search from the left can go one way only. -/
theorem Search.unique (h : Search cs pieces) (h' : Search cs pieces') : pieces = pieces' := by
  induction h generalizing pieces' with
  | done =>
      cases h' with
      | done => rfl
      | take htakes _ => exact absurd rfl htakes.ne_nil
  | skip hnone _ ih =>
      cases h' with
      | skip _ hrest => rw [ih hrest]
      | take htakes _ => exact absurd htakes.toMatches (hnone _ _ _ _)
  | take htakes _ ih =>
      cases h' with
      | done => exact absurd rfl htakes.ne_nil
      | skip hnone _ => exact absurd htakes.toMatches (hnone _ _ _ _)
      | take htakes' hrest =>
          obtain ⟨rfl, rfl, rfl, rfl⟩ := htakes.unique htakes'
          rw [ih hrest]

/-! ### The search after masking -/

/-- A list cannot go on with one class where it begins with another. -/
theorem eq_nil_of_append_eq {p : Char → Bool} {front back tail tail' : List Char} (hne : back ≠ [])
    (hfront : ∀ c ∈ front, p c = false) (hback : ∀ c ∈ back, p c = true)
    (heq : front ++ tail = back ++ tail') : front = [] := by
  cases front with
  | nil => rfl
  | cons c front =>
      obtain ⟨d, back, rfl⟩ := List.exists_cons_of_ne_nil hne
      have hsame : c = d := (List.cons.inj heq).1
      have hno := hfront c List.mem_cons_self
      rw [hsame, hback d List.mem_cons_self] at hno
      cases hno

/-- A match at the front of a text that has a keyword further back lies in front of that keyword with
its own keyword and its separator. -/
theorem Matches.exists_before {keyword tail : List Char} (hkeyword : IsKeyword keyword)
    (hne : before ≠ [])
    (h : Matches (before ++ (keyword ++ tail)) word separator value rest) :
    ∃ between, before = word ++ (separator ++ between) ∧
      between ++ (keyword ++ tail) = value ++ rest := by
  have hletters : ∀ c ∈ keyword, isSeparatorChar c = false := fun c hc => (hkeyword.chars c hc).2
  obtain ⟨hseparator, hsigns⟩ := h.separator_chars
  rcases List.append_eq_append_iff.mp h.text_eq with ⟨more, rfl, hmore⟩ | ⟨between, rfl, hbetween⟩
  · -- The word would reach into the keyword, and then have all of it inside.
    exfalso
    rcases List.append_eq_append_iff.mp hmore with ⟨after, rfl, _⟩ | ⟨part, rfl, hpart⟩
    · exact hne (hkeyword.eq_nil_of_infix h.isKeyword).1
    · have hnil : part = [] := eq_nil_of_append_eq hseparator
        (fun c hc => hletters c (List.mem_append_right more hc)) hsigns hpart.symm
      rw [hnil, List.append_nil] at hkeyword
      refine hne (@IsKeyword.eq_nil_of_infix more before [] hkeyword ?_).1
      rw [List.append_nil]
      exact h.isKeyword
  · rcases List.append_eq_append_iff.mp hbetween with ⟨between, rfl, hbehind⟩ | ⟨part, rfl, hbehind⟩
    · exact ⟨between, rfl, hbehind.symm⟩
    · -- The separator would reach into the keyword.
      have hnil : part = [] := by
        refine @eq_nil_of_append_eq (fun c => !isSeparatorChar c) _ _ _ _ ?_ ?_ ?_ hbehind.symm
        · exact hkeyword.ne_nil
        · intro c hc
          simpa using hsigns c (List.mem_append_right between hc)
        · intro c hc
          simpa using hletters c hc
      subst hnil
      exact ⟨[], by simp, by simpa using hbehind⟩

/-- So it is there whatever follows that keyword. -/
theorem Matches.with_other_tail {keyword tail : List Char} (hkeyword : IsKeyword keyword)
    (hne : before ≠ []) (h : Matches (before ++ (keyword ++ tail)) word separator value rest)
    (tail' : List Char) :
    ∃ value rest, Matches (before ++ (keyword ++ tail')) word separator value rest := by
  obtain ⟨between, rfl, hvalue⟩ := h.exists_before hkeyword hne
  have hlong := hkeyword.five_le_length
  have hthree : (between ++ keyword).take 3 = value.take 3 := by
    have htake := congrArg (List.take 3) hvalue
    rw [← List.append_assoc, List.take_append_of_le_length,
      List.take_append_of_le_length h.isValue.1] at htake
    · exact htake
    · rw [List.length_append]
      omega
  refine ⟨(between ++ keyword).take 3, (between ++ keyword).drop 3 ++ tail', ?_, h.isKeyword,
    h.isSeparator, ?_, ?_⟩
  · simp only [List.append_assoc, List.append_cancel_left_eq]
    rw [← List.append_assoc (List.take 3 _), List.take_append_drop, List.append_assoc]
  · rw [List.length_take, List.length_append]
    omega
  · intro c hc
    rw [hthree] at hc
    exact h.isValue.2 c (List.mem_of_mem_take hc)

/-- What matches in front of masked pieces matches in front of the pieces. -/
theorem Search.exists_matches (h : Search cs pieces) (hne : before ≠ [])
    (hmatches : Matches (before ++ textOf (pieces.map Piece.masked)) word separator value rest) :
    ∃ value rest, Matches (before ++ cs) word separator value rest := by
  induction h generalizing before with
  | done => exact ⟨_, _, hmatches⟩
  | @skip c rest' pieces _ _ ih =>
      have hfront : before ++ textOf ((Piece.plain c :: pieces).map Piece.masked) =
          (before ++ [c]) ++ textOf (pieces.map Piece.masked) := by
        rw [List.append_assoc]
        rfl
      rw [hfront] at hmatches
      obtain ⟨value, behind, hmatches⟩ := ih (by simp) hmatches
      rw [List.append_assoc] at hmatches
      exact ⟨value, behind, hmatches⟩
  | take htakes _ _ =>
      rw [List.map_cons, Piece.masked, textOf_credential] at hmatches
      rw [htakes.text_eq]
      exact hmatches.with_other_tail htakes.isKeyword hne _

theorem isValue_redacted : IsValue redacted.toList := by
  constructor
  · decide
  · exact List.all_eq_true.mp (by decide)

/-- Blanks in front of the mask are no beginning of a separator with a sign. -/
theorem not_isSign_of_blanks {blanks tail tail' : List Char}
    (hblanks : ∀ c ∈ blanks, Text.isBlank c = true)
    (heq : blanks ++ (redacted.toList ++ tail) = separator ++ tail') : ¬ IsSign separator := by
  rintro @⟨quote, quote', front, back, sign, hquote, hfront, hsign, -, -⟩
  have hmask : redacted.toList = '[' :: "REDACTED]".toList := by decide
  have htext : blanks ++ '[' :: ("REDACTED]".toList ++ tail) =
      quote.toList ++ front ++ sign :: (back ++ (quote'.toList ++ tail')) := by
    rw [hmask] at heq
    simpa only [List.cons_append, List.append_assoc] using heq
  -- Both begin with a run of blanks and quotes, which ends with the mask here and the sign there.
  have hleft : (blanks ++ '[' :: ("REDACTED]".toList ++ tail)).takeWhile
      (fun c => Text.isBlank c || isQuote c) = blanks := by
    refine takeWhile_append_self ?_ (by simp [Text.isBlank, isQuote])
    intro c hc
    rw [hblanks c hc, Bool.true_or]
  have hright : (quote.toList ++ front ++ sign :: (back ++ (quote'.toList ++ tail'))).takeWhile
      (fun c => Text.isBlank c || isQuote c) = quote.toList ++ front := by
    refine takeWhile_append_self ?_ (by simpa using of_sign hsign)
    intro c hc
    rcases List.mem_append.mp hc with hc | hc
    · rw [hquote c (Option.mem_toList.mp hc), Bool.or_true]
    · rw [hfront c hc, Bool.true_or]
  have hrun : blanks = quote.toList ++ front := by rw [← hleft, htext, hright]
  rw [hrun] at htext
  have hsame := (List.cons.inj (List.append_cancel_left htext)).1
  rw [← hsame] at hsign
  exact absurd hsign (by decide)

/-- Behind a value the masked text goes on with no character of a value either. -/
theorem Search.head_masked (h : Search cs pieces) (hlongest : ∀ c ∈ cs.head?, isValueChar c = false) :
    ∀ c ∈ (textOf (pieces.map Piece.masked)).head?, isValueChar c = false := by
  cases h with
  | done => exact hlongest
  | skip _ _ => exact hlongest
  | take htakes _ =>
      obtain ⟨c, word, rfl⟩ := List.exists_cons_of_ne_nil htakes.isKeyword.ne_nil
      have hvalue := (htakes.isKeyword.chars c List.mem_cons_self).1
      have hnot := hlongest c (by rw [htakes.text_eq]; rfl)
      rw [hvalue] at hnot
      cases hnot

/-- The search divides the masked text in the same way. -/
theorem Search.masked (h : Search cs pieces) :
    Search (textOf (pieces.map Piece.masked)) (pieces.map Piece.masked) := by
  induction h with
  | done => exact .done
  | @skip c rest pieces hnone hrest ih =>
      refine .skip ?_ ih
      intro word separator value behind hmatches
      obtain ⟨value, behind, hmatches⟩ :=
        @Search.exists_matches _ [c] _ _ _ _ _ hrest (List.cons_ne_nil c []) hmatches
      exact hnone _ _ _ _ hmatches
  | @take cs word separator value rest pieces htakes hrest ih =>
      have hmatches : Matches (textOf ((Piece.credential word separator value :: pieces).map
          Piece.masked)) word separator redacted.toList (textOf (pieces.map Piece.masked)) :=
        ⟨textOf_credential, htakes.isKeyword, htakes.isSeparator, isValue_redacted⟩
      refine .take ⟨hmatches, ?_, hrest.head_masked htakes.longest⟩ ih
      refine htakes.prefers.imp_right ?_
      intro hnone word' separator' value' rest' hmatches'
      have hblanks : IsBlanks separator :=
        htakes.isSeparator.resolve_left (hnone _ _ _ _ htakes.toMatches)
      have htext := hmatches.text_eq.symm.trans hmatches'.text_eq
      obtain rfl := hmatches.isKeyword.eq_of_append_eq hmatches'.isKeyword htext
      exact not_isSign_of_blanks hblanks.2 (List.append_cancel_left htext)

theorem masked_masked (pieces : List Piece) :
    (pieces.map Piece.masked).map Piece.masked = pieces.map Piece.masked := by
  rw [List.map_map]
  refine List.map_congr_left ?_
  intro piece _
  cases piece with
  | plain c => rfl
  | credential word separator value => rfl

theorem eq_redacted_of_mem (h : .credential word separator value ∈ pieces.map Piece.masked) :
    value = redacted.toList := by
  obtain ⟨piece, -, hpiece⟩ := List.mem_map.mp h
  cases piece with
  | plain c => cases hpiece
  | credential word separator value =>
      cases hpiece
      rfl

end Credential

open Credential (Piece Search textOf)

/-- A search from the left divides every text in one way.  Masking replaces the values of the
credentials that it finds by the mask and keeps all other pieces, with the keywords and the separators
of the credentials, in their order.  In the masked text the search finds these pieces again, so each
credential found there has the mask for its value, and masking again changes nothing. -/
theorem maskCredentials_complete (text : String) :
    ∃ pieces, (∀ found, Search text.toList found ↔ found = pieces) ∧
      text = String.ofList (textOf pieces) ∧
      maskCredentials text = String.ofList (textOf (pieces.map Piece.masked)) ∧
      Search (maskCredentials text).toList (pieces.map Piece.masked) ∧
      (∀ found, Search (maskCredentials text).toList found →
        ∀ word separator value, .credential word separator value ∈ found →
          value = "[REDACTED]".toList) ∧
      maskCredentials (maskCredentials text) = maskCredentials text := by
  obtain ⟨pieces, hsearch⟩ := Credential.exists_search text.toList
  have hmask : maskCredentials text = String.ofList (textOf (pieces.map Piece.masked)) := by
    rw [maskCredentials, hsearch.maskChars_eq]
  have hagain : Search (maskCredentials text).toList (pieces.map Piece.masked) := by
    rw [hmask, String.toList_ofList]
    exact hsearch.masked
  refine ⟨pieces, ?_, ?_, hmask, hagain, ?_, ?_⟩
  · exact fun found => ⟨fun h => h.unique hsearch, fun h => h ▸ hsearch⟩
  · rw [hsearch.textOf_eq, String.ofList_toList]
  · intro found hfound word separator value hmem
    rw [hfound.unique hagain] at hmem
    exact Credential.eq_redacted_of_mem hmem
  · rw [maskCredentials, hagain.maskChars_eq, Credential.masked_masked, hmask]

namespace CredentialMaskWitness

/-- Keywords that overlap, a value that is too short behind a sign and behind blanks, and one that is
too short behind the sign only. -/
def text : String := "secretoken=abcdef api-KEY : 'x y' token  =ab&passwd: hunter2"

theorem masked_once_and_for_all :
    maskCredentials text =
        "secretoken=[REDACTED] api-KEY : 'x y' token  [REDACTED]&passwd: [REDACTED]" ∧
      maskCredentials (maskCredentials text) = maskCredentials text ∧
      ∃ pieces, Search (maskCredentials text).toList pieces ∧
        ∀ word separator value, .credential word separator value ∈ pieces →
          value = "[REDACTED]".toList := by
  obtain ⟨pieces, -, -, -, hfound, hvalues, hagain⟩ := maskCredentials_complete text
  exact ⟨by decide +kernel, hagain, _, hfound, hvalues _ hfound⟩

end CredentialMaskWitness

end Courier.Redaction
