import Courier.Config.Placeholder
import Mathlib.Data.List.TakeWhile
/-!
Texts with placeholders.  A text is cut at its leftmost placeholder, and what stands behind that is cut
in the same way; every text has one such cut.  Expansion goes once over the pieces of the cut: it puts
values in the place of placeholders, does not look at them again, and keeps all other text, such as a
placeholder without a name or one that nothing closes.
-/
namespace Courier.Config

variable {lookup : String → Option String} {cs before name after : List Char}

/-! ### Placeholders -/

/-- The name of a variable between the ends of a placeholder. -/
structure IsName (name : List Char) : Prop where
  ne_nil : name ≠ []
  unclosed : closing ∉ name

def written (name : List Char) : List Char :=
  opening ++ (name ++ [closing])

/-- A placeholder stands in a text, between what comes before it and what comes after it. -/
structure Stands (cs before name after : List Char) : Prop where
  isName : IsName name
  text_eq : cs = before ++ (written name ++ after)

theorem IsName.takeWhile_append (h : IsName name) (tail : List Char) :
    (name ++ closing :: tail).takeWhile (· != closing) = name := by
  have hopen : ∀ c ∈ name, (c != closing) = true := by
    intro c hc
    rw [bne_iff_ne]
    rintro rfl
    exact h.unclosed hc
  rw [List.takeWhile_append_of_pos hopen, List.takeWhile_cons_of_neg (by simp), List.append_nil]

/-- The placeholder that is found stands at the front. -/
theorem placeholder?_eq_some_iff :
    placeholder? cs = some (name, after) ↔ Stands cs [] name after := by
  constructor
  · intro h
    unfold placeholder? at h
    split at h
    case isFalse => cases h
    case isTrue hfront =>
      obtain ⟨rest, rfl⟩ := List.isPrefixOf_iff_prefix.mp hfront
      dsimp only at h
      rw [List.drop_left] at h
      have hopen : ∀ c ∈ rest.takeWhile (· != closing), (c != closing) = true :=
        fun c hc => @List.mem_takeWhile_imp _ (· != closing) rest c hc
      have hrest := @List.takeWhile_append_dropWhile _ (· != closing) rest
      have hclosed := List.head?_dropWhile_not (· != closing) rest
      generalize rest.takeWhile (· != closing) = read at h hopen hrest
      generalize rest.dropWhile (· != closing) = behind at hrest hclosed
      subst hrest
      rw [List.drop_left] at h
      cases behind with
      | nil => cases h
      | cons c tail =>
          have hc : c = closing := by simpa using hclosed
          cases hempty : read.isEmpty with
          | true => simp [hempty] at h
          | false =>
              simp only [hempty, Bool.false_eq_true, if_false, Option.some.injEq,
                Prod.mk.injEq] at h
              obtain ⟨rfl, rfl⟩ := h
              have hname : IsName read :=
                ⟨List.isEmpty_eq_false_iff.mp hempty, fun hmem => bne_iff_ne.mp (hopen _ hmem) rfl⟩
              exact ⟨hname, by simp [written, hc]⟩
  · rintro ⟨hname, rfl⟩
    have htext : [] ++ (written name ++ after) = opening ++ (name ++ closing :: after) := by
      simp [written]
    have hfront : opening.isPrefixOf (opening ++ (name ++ closing :: after)) = true :=
      List.isPrefixOf_iff_prefix.mpr (List.prefix_append _ _)
    rw [htext, placeholder?, if_pos hfront]
    dsimp only
    rw [List.drop_left, hname.takeWhile_append after, List.drop_left]
    simp [hname.ne_nil]

theorem Stands.cons (h : Stands cs before name after) (c : Char) :
    Stands (c :: cs) (c :: before) name after :=
  ⟨h.isName, by rw [h.text_eq, List.cons_append]⟩

theorem not_stands_nil : ¬ Stands [] before name after := by
  intro h
  have hlength := congrArg List.length h.text_eq
  simp [written] at hlength

theorem placeholder?_nil : placeholder? [] = none := by
  rw [Option.eq_none_iff_forall_ne_some]
  intro found h
  exact not_stands_nil (placeholder?_eq_some_iff.mp h)

/-! ### Cuts -/

/-- A piece of a text: text that stays, or a placeholder. -/
inductive Piece
  | kept (cs : List Char)
  | place (name : List Char)

def Piece.text : Piece → List Char
  | kept cs => cs
  | place name => written name

/-- What stands for the piece in the end. -/
def Piece.fill (lookup : String → Option String) : Piece → Except SetupError (List Char)
  | kept cs => .ok cs
  | place name =>
      match lookup (String.ofList name) with
      | none => .error (.variableNotFound (String.ofList name))
      | some value => .ok value.toList

/-- A text is cut at the leftmost of its placeholders, and so is what stands behind it; a text without
placeholders is one piece. -/
inductive Cut : List Char → List Piece → Prop
  | last {cs : List Char} (hnone : ∀ before name after, ¬ Stands cs before name after) :
      Cut cs [.kept cs]
  | more {cs before name after : List Char} {pieces : List Piece}
      (hstands : Stands cs before name after)
      (hleftmost : ∀ before' name' after', Stands cs before' name' after' →
        before.length ≤ before'.length)
      (hrest : Cut after pieces) : Cut cs (.kept before :: .place name :: pieces)

variable {pieces pieces' : List Piece}

/-- The pieces of a cut make the text. -/
theorem Cut.text_eq (h : Cut cs pieces) : pieces.flatMap Piece.text = cs := by
  induction h with
  | last => simp [Piece.text]
  | more hstands _ _ ih =>
      rw [hstands.text_eq, List.flatMap_cons, List.flatMap_cons, ih]
      rfl

/-- There is no placeholder in text that stays. -/
theorem Cut.not_stands_of_kept (h : Cut cs pieces) {text : List Char} (hkept : .kept text ∈ pieces)
    (before name after : List Char) : ¬ Stands text before name after := by
  induction h with
  | last hnone =>
      obtain rfl : text = _ := by simpa using hkept
      exact hnone before name after
  | @more cs front name' behind pieces hstands hleftmost _ ih =>
      rcases List.mem_cons.mp hkept with heq | hkept
      · cases heq
        intro hinside
        -- it would stand in the whole text and further left than the leftmost one
        have hwhole : Stands cs before name (after ++ (written name' ++ behind)) :=
          ⟨hinside.isName, by rw [hstands.text_eq, hinside.text_eq]; simp [List.append_assoc]⟩
        have hlong := congrArg List.length hinside.text_eq
        have hfirst := hleftmost _ _ _ hwhole
        simp only [written, List.length_append, List.length_singleton] at hlong
        omega
      · exact ih (by simpa using hkept)

/-- One more character in front, at which no placeholder begins, belongs to the first piece. -/
theorem Cut.cons {c : Char} (h : Cut cs pieces) (hnone : placeholder? (c :: cs) = none) :
    ∃ pieces', Cut (c :: cs) pieces' := by
  have hbehind : ∀ before name after, Stands (c :: cs) before name after →
      ∃ tail, before = c :: tail ∧ Stands cs tail name after := by
    intro before name after hstands
    cases before with
    | nil =>
        rw [placeholder?_eq_some_iff.mpr hstands] at hnone
        cases hnone
    | cons d tail =>
        obtain ⟨rfl, htext⟩ := List.cons.inj hstands.text_eq
        exact ⟨tail, rfl, hstands.isName, htext⟩
  cases h with
  | last hnone =>
      refine ⟨_, .last ?_⟩
      intro before name after hstands
      obtain ⟨tail, _, htail⟩ := hbehind _ _ _ hstands
      exact hnone _ _ _ htail
  | more hstands hleftmost hrest =>
      refine ⟨_, .more (hstands.cons c) ?_ hrest⟩
      intro before name after hother
      obtain ⟨tail, rfl, htail⟩ := hbehind _ _ _ hother
      exact Nat.succ_le_succ (hleftmost _ _ _ htail)

theorem exists_cut (cs : List Char) : ∃ pieces, Cut cs pieces := by
  induction hlength : cs.length using Nat.strong_induction_on generalizing cs with
  | h n ih =>
      cases hfound : placeholder? cs with
      | some found =>
          have hstands := placeholder?_eq_some_iff.mp hfound
          obtain ⟨pieces, hpieces⟩ :=
            ih _ (hlength ▸ length_lt_of_placeholder? hfound) found.2 rfl
          exact ⟨_, .more hstands (fun _ _ _ _ => Nat.zero_le _) hpieces⟩
      | none =>
          cases cs with
          | nil => exact ⟨_, .last fun _ _ _ => not_stands_nil⟩
          | cons c rest =>
              obtain ⟨pieces, hpieces⟩ := ih rest.length (hlength ▸ Nat.lt_succ_self _) rest rfl
              exact hpieces.cons hfound

theorem Stands.behind_eq {name' after' : List Char} (h : Stands cs before name after)
    (h' : Stands cs before name' after') : name = name' ∧ after = after' := by
  have hfront := List.append_cancel_left (h.text_eq.symm.trans h'.text_eq)
  have hfound : placeholder? (written name ++ after) = some (name, after) :=
    placeholder?_eq_some_iff.mpr ⟨h.isName, rfl⟩
  have hfound' : placeholder? (written name' ++ after') = some (name', after') :=
    placeholder?_eq_some_iff.mpr ⟨h'.isName, rfl⟩
  rw [hfront, hfound', Option.some.injEq, Prod.mk.injEq] at hfound
  exact ⟨hfound.1.symm, hfound.2.symm⟩

theorem Cut.unique (h : Cut cs pieces) (h' : Cut cs pieces') : pieces = pieces' := by
  induction h generalizing pieces' with
  | last hnone =>
      cases h' with
      | last => rfl
      | more hstands => exact absurd hstands (hnone _ _ _)
  | more hstands hleftmost _ ih =>
      cases h' with
      | last hnone => exact absurd hstands (hnone _ _ _)
      | more hstands' hleftmost' hrest' =>
          have hlength := Nat.le_antisymm (hleftmost _ _ _ hstands') (hleftmost' _ _ _ hstands)
          have htext := hstands.text_eq.symm.trans hstands'.text_eq
          obtain ⟨rfl, -⟩ := List.append_inj htext hlength
          obtain ⟨rfl, rfl⟩ := hstands.behind_eq hstands'
          rw [ih hrest']

/-! ### Expansion -/

theorem expandChars_nil : expandChars lookup [] = .ok [] := by
  rw [expandChars]
  split
  · rename_i hsome
    rw [placeholder?_nil] at hsome
    cases hsome
  · rfl

theorem expandChars_cons {c : Char} (h : placeholder? (c :: cs) = none) :
    expandChars lookup (c :: cs) = (c :: ·) <$> expandChars lookup cs := by
  rw [expandChars]
  split
  · rename_i hsome
    rw [h] at hsome
    cases hsome
  · dsimp only
    cases expandChars lookup cs <;> rfl

theorem expandChars_of_stands (h : Stands cs [] name after) :
    expandChars lookup cs = do
      let value ← Piece.fill lookup (.place name)
      return value ++ (← expandChars lookup after) := by
  have hfound := placeholder?_eq_some_iff.mpr h
  rw [expandChars]
  split
  · rename_i hsome
    rw [hfound] at hsome
    cases hsome
    simp only [Piece.fill]
    cases lookup (String.ofList name) with
    | none => rfl
    | some value => cases expandChars lookup after <;> rfl
  · rename_i hnone
    rw [hfound] at hnone
    cases hnone

/-- What stands in front of the leftmost placeholder is kept. -/
theorem expandChars_append (front behind : List Char)
    (hleftmost : ∀ before name after, Stands (front ++ behind) before name after →
      front.length ≤ before.length) :
    expandChars lookup (front ++ behind) = (front ++ ·) <$> expandChars lookup behind := by
  induction front with
  | nil =>
      rw [List.nil_append]
      cases expandChars lookup behind <;> rfl
  | cons c front ih =>
      have hnone : placeholder? (c :: (front ++ behind)) = none := by
        rw [Option.eq_none_iff_forall_ne_some]
        intro found hfound
        exact absurd (hleftmost _ _ _ (placeholder?_eq_some_iff.mp hfound)) (by simp)
      have hrest : ∀ before name after, Stands (front ++ behind) before name after →
          front.length ≤ before.length := by
        intro before name after hstands
        exact Nat.le_of_succ_le_succ (hleftmost _ _ _ (hstands.cons c))
      rw [List.cons_append, expandChars_cons hnone, ih hrest]
      cases expandChars lookup behind <;> rfl

/-- Expansion fills the pieces of the cut, one after the other. -/
theorem Cut.expandChars_eq (h : Cut cs pieces) :
    expandChars lookup cs = List.flatten <$> pieces.mapM (Piece.fill lookup) := by
  induction h with
  | @last cs hnone =>
      have hkept := @expandChars_append lookup cs []
        (by rw [List.append_nil]; exact fun _ _ _ h => absurd h (hnone _ _ _))
      rw [List.append_nil, expandChars_nil] at hkept
      rw [hkept]
      simp [Piece.fill]
  | @more cs before name after pieces hstands hleftmost _ ih =>
      obtain ⟨hname, rfl⟩ := hstands
      have hfront : Stands (written name ++ after) [] name after := ⟨hname, rfl⟩
      rw [expandChars_append _ _ hleftmost, expandChars_of_stands hfront, ih]
      simp only [List.mapM_cons, Piece.fill]
      cases lookup (String.ofList name) with
      | none => rfl
      | some value => cases pieces.mapM (Piece.fill lookup) <;> rfl

theorem Cut.mapM_fill_fails_iff (h : Cut cs pieces) :
    (∃ e, pieces.mapM (Piece.fill lookup) = .error e) ↔
      ∃ name, .place name ∈ pieces ∧ lookup (String.ofList name) = none := by
  induction h with
  | last => exact iff_of_false (by rintro ⟨_, ⟨⟩⟩) (by simp)
  | @more _ before name after pieces _ _ _ ih =>
      simp only [List.mapM_cons, Piece.fill, List.mem_cons, Piece.place.injEq, reduceCtorEq,
        false_or]
      cases hvalue : lookup (String.ofList name) with
      | none => exact iff_of_true ⟨_, rfl⟩ ⟨name, .inl rfl, hvalue⟩
      | some value =>
          have hset : ∀ other, (other = name ∨ .place other ∈ pieces) ∧
              lookup (String.ofList other) = none ↔
              .place other ∈ pieces ∧ lookup (String.ofList other) = none := by
            intro other
            constructor
            · rintro ⟨rfl | hmem, hnone⟩
              · rw [hvalue] at hnone
                cases hnone
              · exact ⟨hmem, hnone⟩
            · rintro ⟨hmem, hnone⟩
              exact ⟨.inr hmem, hnone⟩
          simp only [hset, ← ih]
          cases pieces.mapM (Piece.fill lookup) with
          | error e => exact iff_of_true ⟨e, rfl⟩ ⟨e, rfl⟩
          | ok parts => exact iff_of_false (by rintro ⟨_, ⟨⟩⟩) (by rintro ⟨_, ⟨⟩⟩)

/-- Behind the last sign that closes there is no part of a placeholder. -/
theorem Stands.of_append {tail : List Char} (h : Stands (cs ++ tail) before name after)
    (htail : closing ∉ tail) : ∃ between, after = between ++ tail ∧ Stands cs before name between := by
  obtain ⟨hname, htext⟩ := h
  rw [← List.append_assoc] at htext
  rcases List.append_eq_append_iff.mp htext with ⟨more, hplace, hbehind⟩ | ⟨between, rfl, hbehind⟩
  · -- what is left of the placeholder in the tail would end in the sign that closes
    rcases List.eq_nil_or_concat more with rfl | ⟨front, c, rfl⟩
    · rw [List.append_nil] at hplace
      exact ⟨[], hbehind.symm, hname, by rw [List.append_nil, hplace]⟩
    · have hend : (before ++ (opening ++ name)) ++ [closing] = (cs ++ front) ++ [c] := by
        simpa [written, List.append_assoc] using hplace
      obtain ⟨-, hc⟩ := List.append_inj' hend rfl
      obtain rfl : closing = c := by simpa using hc
      exact absurd (by simp [hbehind]) htail
  · exact ⟨between, hbehind, hname, List.append_assoc _ _ _⟩

/-- What stands behind the last sign that closes is kept. -/
theorem Cut.expandChars_append_unclosed (h : Cut cs pieces) {tail : List Char}
    (htail : closing ∉ tail) :
    expandChars lookup (cs ++ tail) = (· ++ tail) <$> expandChars lookup cs := by
  induction h with
  | @last cs hnone =>
      have hlast : Cut (cs ++ tail) [.kept (cs ++ tail)] := by
        refine .last fun before name after hstands => ?_
        obtain ⟨between, -, hstands⟩ := hstands.of_append htail
        exact hnone _ _ _ hstands
      rw [hlast.expandChars_eq, (Cut.last hnone).expandChars_eq]
      simp [Piece.fill]
  | @more cs before name after pieces hstands hleftmost _ ih =>
      obtain ⟨hname, rfl⟩ := hstands
      have hfront : ∀ behind, Stands (written name ++ behind) [] name behind :=
        fun behind => ⟨hname, rfl⟩
      rw [expandChars_append _ _ hleftmost, expandChars_of_stands (hfront after),
        List.append_assoc, List.append_assoc, expandChars_append,
        expandChars_of_stands (hfront (after ++ tail)), ih]
      · cases Piece.fill lookup (.place name) with
        | error e => rfl
        | ok value =>
            cases expandChars lookup after with
            | error e => rfl
            | ok rest => simp [pure, Except.pure, bind, Except.bind]
      · intro front other behind hstands
        rw [← List.append_assoc (written name), ← List.append_assoc before] at hstands
        obtain ⟨between, -, hstands⟩ := hstands.of_append htail
        exact hleftmost _ _ _ hstands

/-- What opens a placeholder has its first sign nowhere else. -/
theorem exists_opening : ∃ more, opening = '$' :: more ∧ '$' ∉ more :=
  ⟨opening.tail, rfl, by decide⟩

theorem Stands.length_le {front behind : List Char}
    (h : Stands (front ++ behind) before name after) (hfront : '$' ∉ front) :
    front.length ≤ before.length := by
  obtain ⟨-, htext⟩ := h
  obtain ⟨more, hopening, -⟩ := exists_opening
  rw [written, hopening] at htext
  rcases List.append_eq_append_iff.mp htext with ⟨tail, rfl, -⟩ | ⟨tail, rfl, hbehind⟩
  · simp
  · cases tail with
    | nil => simp
    | cons c tail =>
        obtain rfl : '$' = c := (List.cons.inj hbehind).1
        exact absurd (by simp) hfront

theorem placeholder?_nameless (tail : List Char) :
    placeholder? (opening ++ closing :: tail) = none := by
  rw [Option.eq_none_iff_forall_ne_some]
  intro found hfound
  obtain ⟨hname, htext⟩ := placeholder?_eq_some_iff.mp hfound
  rw [List.nil_append, written, List.append_assoc] at htext
  have hbehind := List.append_cancel_left htext
  obtain ⟨c, more, hcons⟩ := List.exists_cons_of_ne_nil hname.ne_nil
  rw [hcons] at hbehind
  apply hname.unclosed
  rw [hcons, (List.cons.inj hbehind).1]
  exact List.mem_cons_self

/-- A placeholder without a name is kept, and what follows it is expanded as if it stood alone. -/
theorem expandChars_nameless (tail : List Char) :
    expandChars lookup (opening ++ closing :: tail) =
      (opening ++ closing :: ·) <$> expandChars lookup tail := by
  have hnone := placeholder?_nameless tail
  obtain ⟨more, hopening, hmore⟩ := exists_opening
  rw [hopening] at hnone ⊢
  have hkept : expandChars lookup ((more ++ [closing]) ++ tail) =
      ((more ++ [closing]) ++ ·) <$> expandChars lookup tail := by
    refine expandChars_append _ _ fun _ _ _ hstands => hstands.length_le ?_
    simp only [List.mem_append, List.mem_singleton, not_or]
    exact ⟨hmore, by decide⟩
  rw [List.append_assoc, List.singleton_append] at hkept
  rw [List.cons_append] at hnone ⊢
  rw [expandChars_cons hnone, hkept]
  cases expandChars lookup tail <;> simp

theorem expand_eq (lookup : String → Option String) (text : String) :
    expand lookup text = String.ofList <$> expandChars lookup text.toList := by
  unfold expand
  cases expandChars lookup text.toList <;> rfl

/-- Expansion is one pass over the one cut of a text at its leftmost placeholders: the pieces are
filled in order, so text that stays is as it was, a placeholder becomes the value of its variable as it
is, and the first variable that is not set is the error.  What nothing closes stays behind the text in
front of it, and a placeholder without a name in front of the text behind it. -/
theorem expand_fills_placeholders (lookup : String → Option String) (text : String) :
    (∃ pieces, Cut text.toList pieces ∧ (∀ other, Cut text.toList other → other = pieces) ∧
      pieces.flatMap Piece.text = text.toList ∧
      (∀ cs, .kept cs ∈ pieces → ∀ before name after, ¬ Stands cs before name after) ∧
      expand lookup text =
        (fun parts => String.ofList parts.flatten) <$> pieces.mapM (Piece.fill lookup) ∧
      ((∃ e, expand lookup text = .error e) ↔
        ∃ name, .place name ∈ pieces ∧ lookup (String.ofList name) = none)) ∧
    (∀ tail, closing ∉ tail → expand lookup (String.ofList (text.toList ++ tail)) =
      (fun front => String.ofList (front.toList ++ tail)) <$> expand lookup text) ∧
    expand lookup (String.ofList (opening ++ closing :: text.toList)) =
      (fun behind => String.ofList (opening ++ closing :: behind.toList)) <$> expand lookup text := by
  obtain ⟨pieces, hcut⟩ := exists_cut text.toList
  have hexpand : expand lookup text =
      (fun parts => String.ofList parts.flatten) <$> pieces.mapM (Piece.fill lookup) := by
    rw [expand_eq, hcut.expandChars_eq]
    cases pieces.mapM (Piece.fill lookup) <;> rfl
  refine ⟨⟨pieces, hcut, fun other hother => hother.unique hcut, hcut.text_eq,
    fun cs hkept => hcut.not_stands_of_kept hkept, hexpand, ?_⟩, ?_, ?_⟩
  · rw [← hcut.mapM_fill_fails_iff, hexpand]
    cases pieces.mapM (Piece.fill lookup) with
    | error e => exact iff_of_true ⟨e, rfl⟩ ⟨e, rfl⟩
    | ok parts => exact iff_of_false (by rintro ⟨_, ⟨⟩⟩) (by rintro ⟨_, ⟨⟩⟩)
  · intro tail htail
    rw [expand_eq, expand_eq, String.toList_ofList, hcut.expandChars_append_unclosed htail]
    cases expandChars lookup text.toList <;> simp
  · rw [expand_eq, expand_eq, String.toList_ofList, expandChars_nameless]
    cases expandChars lookup text.toList <;> simp

end Courier.Config
