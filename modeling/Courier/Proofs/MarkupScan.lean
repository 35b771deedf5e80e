import Courier.Xml.Event
import Mathlib.Data.List.TakeWhile
/-!
The scan of markup, piece by piece.  A piece has one of six forms, each a cut and what is made of the
part that is cut off.  Where the cut is made is settled by what stands before it, so a scan that comes to
the end of a text without a defect goes on in the same way when more markup follows.
-/
namespace Courier.Xml

variable {cs : List Char}

/-! ### Cuts -/

/-- Cut in front of the first `>` at which a state allows it; each character before it moves the
state on. -/
def cutBy {σ : Type} (ends : σ → Bool) (next : σ → Char → σ) (state : σ) : List Char → Cut
  | [] => none
  | c :: rest =>
      if c = '>' ∧ ends state = true then some ([], rest)
      else (cutBy ends next (next state c) rest).map fun cut => (c :: cut.1, cut.2)

/-- A cut that takes nothing away but the `>`, and is made in the same way whatever follows. -/
def Steady (cut : List Char → Cut) : Prop :=
  ∀ ⦃cs tag rest⦄, cut cs = some (tag, rest) →
    cs = tag ++ '>' :: rest ∧ ∀ tail, cut (cs ++ tail) = some (tag, rest ++ tail)

theorem steady_cutBy {σ : Type} (ends : σ → Bool) (next : σ → Char → σ) (state : σ) :
    Steady (cutBy ends next state) := by
  intro cs tag rest h
  induction cs generalizing state tag with
  | nil => cases h
  | cons c cs ih =>
      rw [cutBy] at h
      by_cases hend : c = '>' ∧ ends state = true
      · rw [if_pos hend, Option.some.injEq, Prod.mk.injEq] at h
        obtain ⟨rfl, rfl⟩ := h
        refine ⟨by rw [hend.1]; rfl, ?_⟩
        intro tail
        rw [List.cons_append, cutBy, if_pos hend]
      · rw [if_neg hend] at h
        obtain ⟨cut, hcut, hpair⟩ := Option.map_eq_some_iff.mp h
        obtain ⟨rfl, rfl⟩ := Prod.mk.inj hpair
        obtain ⟨htext, hmore⟩ := ih (next state c) hcut
        refine ⟨by rw [htext]; rfl, ?_⟩
        intro tail
        rw [List.cons_append, cutBy, if_neg hend, hmore, Option.map_some]

/-- The quote that stands open behind a character. -/
def quoteBehind (quote : Option Char) (c : Char) : Option Char :=
  match quote with
  | some q => if c = q then none else some q
  | none => if c = '"' ∨ c = '\'' then some c else none

theorem cutTag_eq_cutBy (quote : Option Char) (cs : List Char) :
    cutTag quote cs = cutBy Option.isNone quoteBehind quote cs := by
  induction cs generalizing quote with
  | nil => rfl
  | cons c cs ih =>
      have hstep : cutTag quote (c :: cs) = if c = '>' ∧ quote = none then some ([], cs)
          else (cutTag (quoteBehind quote c) cs).map fun cut => (c :: cut.1, cut.2) := by
        cases quote <;> rfl
      simp only [hstep, cutBy, ih, Option.isNone_iff_eq_none]

theorem steady_cutTag (quote : Option Char) : Steady (cutTag quote) := by
  rw [funext (cutTag_eq_cutBy quote)]
  exact steady_cutBy _ _ quote

/-- How many `<` stand open behind a character. -/
def depthBehind (depth : Nat) (c : Char) : Nat :=
  if c = '<' then depth + 1 else if c = '>' then depth - 1 else depth

theorem cutBalanced_eq_cutBy (depth : Nat) (cs : List Char) :
    cutBalanced depth cs = cutBy (fun depth => depth == 0) depthBehind depth cs := by
  induction cs generalizing depth with
  | nil => rfl
  | cons c cs ih =>
      have hstep : cutBalanced depth (c :: cs) = if c = '>' ∧ depth = 0 then some ([], cs)
          else (cutBalanced (depthBehind depth c) cs).map fun cut => (c :: cut.1, cut.2) := rfl
      simp only [hstep, cutBy, ih, beq_iff_eq]

theorem steady_cutBalanced (depth : Nat) : Steady (cutBalanced depth) := by
  rw [funext (cutBalanced_eq_cutBy depth)]
  exact steady_cutBy _ _ depth

theorem cutWhere_eq_cutBy (test : List Char → Bool) (passed cs : List Char) :
    cutWhere test passed cs = (cutBy test (fun passed c => c :: passed) passed cs).map
      fun cut => (passed.reverse ++ cut.1, cut.2) := by
  induction cs generalizing passed with
  | nil => rfl
  | cons c cs ih =>
      rw [cutWhere, cutBy, ih]
      split
      · simp
      · simp [Function.comp_def]

theorem steady_cutWhere (test : List Char → Bool) : Steady (cutWhere test []) := by
  have hcut : cutWhere test [] = cutBy test (fun passed c => c :: passed) [] := by
    funext cs
    rw [cutWhere_eq_cutBy]
    simp
  rw [hcut]
  exact steady_cutBy _ _ []

/-! ### Pieces of markup -/

/-- The elements open behind an event, the innermost first; an end tag must be that of the innermost
one. -/
def openBehind (opened : List (List Char)) : Event → Option (List (List Char))
  | .start name _ => some (name :: opened)
  | .stop name =>
      match opened with
      | [] => none
      | expected :: outer => if name = expected then some outer else none
  | .empty _ _ | .text _ | .cdata _ | .aside => some opened

/-- How a piece of markup is read: where it is cut, and what is made of the tag that is cut off, an
event with the elements open behind it. -/
structure Form where
  cut : List Char → Cut
  make : List Char → Except Defect (Event × List (List Char))
  defect : Defect

/-- What is found with more behind it. -/
def Found.before (found : Found) (tail : List Char) : Found :=
  { found with rest := found.rest ++ tail }

namespace Form

def read (form : Form) (cs : List Char) : Except Defect (Found × List (List Char)) :=
  match form.cut cs with
  | none => .error form.defect
  | some (tag, rest) => (form.make tag).map fun made => (⟨made.1, tag.length + 1, rest⟩, made.2)

def comment (opened : List (List Char)) : Form where
  cut := cutWhere endsComment []
  make tag := if beginsWith "!--".toList tag then .ok (.aside, opened) else .error .openComment
  defect := .openComment

def cdata (opened : List (List Char)) : Form where
  cut := cutWhere endsCdata []
  make tag :=
    if beginsWith "![CDATA[".toList tag then
      .ok (.cdata ((tag.drop 8).take (tag.length - 10)), opened)
    else .error .openCdata
  defect := .openCdata

def doctype (opened : List (List Char)) : Form where
  cut := cutBalanced 0
  make tag :=
    if !beginsWith "!DOCTYPE".toList tag then .error .openDoctype
    else if (tag.drop 8).all Text.isMarkupBlank then .error .noDoctypeName
    else .ok (.aside, opened)
  defect := .openDoctype

def instruction (opened : List (List Char)) : Form where
  cut := cutWhere endsInstruction []
  make tag := if 1 < tag.length then .ok (.aside, opened) else .error .openInstruction
  defect := .openInstruction

def stop (expected : List Char) (outer : List (List Char)) : Form where
  cut := cutTag none
  make tag :=
    let name := endName (tag.drop 1)
    if name = expected then .ok (.stop name, outer)
    else .error (.mismatchedEnd (String.ofList expected) (String.ofList name))
  defect := .openTag

def element (opened : List (List Char)) : Form where
  cut := cutTag none
  make tag :=
    if tag.getLast? = some '/' then .ok (.empty (tagName tag.dropLast) tag.dropLast, opened)
    else .ok (.start (tagName tag) tag, tagName tag :: opened)
  defect := .openTag

/-- A form is that of the markup at the front of a text, with whatever follows. -/
structure Fits (form : Form) (opened : List (List Char)) (cs : List Char) : Prop where
  steady : Steady form.cut
  reads : ∀ tail, scanMarkup opened (cs ++ tail) = form.read (cs ++ tail)
  opens : ∀ tag made, form.make tag = .ok made → openBehind opened made.1 = some made.2

variable {opened : List (List Char)} {more : List Char}

theorem fits_comment : (comment opened).Fits opened ('!' :: '-' :: more) where
  steady := steady_cutWhere endsComment
  reads tail := by
    simp only [List.cons_append, scanMarkup, scanBang, read, comment]
    cases cutWhere endsComment [] ('!' :: '-' :: (more ++ tail)) with
    | none => rfl
    | some cut => dsimp only; split <;> rfl
  opens tag made hmade := by
    simp only [comment] at hmade
    split at hmade <;> cases hmade
    rfl

theorem fits_cdata : (cdata opened).Fits opened ('!' :: '[' :: more) where
  steady := steady_cutWhere endsCdata
  reads tail := by
    simp only [List.cons_append, scanMarkup, scanBang, read, cdata]
    cases cutWhere endsCdata [] ('!' :: '[' :: (more ++ tail)) with
    | none => rfl
    | some cut => dsimp only; split <;> rfl
  opens tag made hmade := by
    simp only [cdata] at hmade
    split at hmade <;> cases hmade
    rfl

theorem fits_doctype {d : Char} (hd : d = 'D' ∨ d = 'd') :
    (doctype opened).Fits opened ('!' :: d :: more) where
  steady := steady_cutBalanced 0
  reads tail := by
    have hsign : d ≠ '-' ∧ d ≠ '[' := by
      rcases hd with rfl | rfl <;> decide
    simp only [List.cons_append, scanMarkup]
    rw [scanBang, if_pos hd]
    · simp only [read, doctype]
      cases cutBalanced 0 ('!' :: d :: (more ++ tail)) with
      | none => rfl
      | some cut =>
          dsimp only
          split
          · rfl
          · split <;> rfl
    all_goals simp [hsign]
  opens tag made hmade := by
    simp only [doctype] at hmade
    split at hmade
    · cases hmade
    · split at hmade <;> cases hmade
      rfl

theorem fits_instruction : (instruction opened).Fits opened ('?' :: more) where
  steady := steady_cutWhere endsInstruction
  reads tail := by
    simp only [List.cons_append, scanMarkup, read, instruction]
    cases cutWhere endsInstruction [] ('?' :: (more ++ tail)) with
    | none => rfl
    | some cut => dsimp only; split <;> rfl
  opens tag made hmade := by
    simp only [instruction] at hmade
    split at hmade <;> cases hmade
    rfl

theorem fits_stop {expected : List Char} :
    (stop expected opened).Fits (expected :: opened) ('/' :: more) where
  steady := steady_cutTag none
  reads tail := by
    simp only [List.cons_append, scanMarkup, read, stop]
    cases cutTag none ('/' :: (more ++ tail)) with
    | none => rfl
    | some cut => dsimp only; split <;> rfl
  opens tag made hmade := by
    simp only [stop] at hmade
    split at hmade <;> cases hmade
    rename_i hname
    rw [openBehind, if_pos hname]

theorem fits_element {c : Char} (hc : c ∉ ['!', '?', '/']) :
    (element opened).Fits opened (c :: more) where
  steady := steady_cutTag none
  reads tail := by
    rw [List.cons_append, scanMarkup]
    · simp only [read, element]
      cases cutTag none (c :: (more ++ tail)) with
      | none => rfl
      | some cut => dsimp only; split <;> rfl
    all_goals simp_all
  opens tag made hmade := by
    simp only [element] at hmade
    split at hmade <;> cases hmade <;> rfl

/-- Whatever is read as markup has one of the forms. -/
theorem exists_fits {cs : List Char} {result : Found × List (List Char)}
    (h : scanMarkup opened cs = .ok result) : ∃ form, Fits form opened cs := by
  unfold scanMarkup at h
  split at h
  · cases h
  · rename_i more
    unfold scanBang at h
    split at h
    · rename_i hfront
      exact ⟨comment opened, hfront ▸ fits_comment⟩
    · rename_i hfront
      exact ⟨cdata opened, hfront ▸ fits_cdata⟩
    · rename_i hfront
      split at h
      · rename_i hd
        exact ⟨doctype opened, hfront ▸ fits_doctype hd⟩
      · cases h
    · cases h
  · exact ⟨instruction opened, fits_instruction⟩
  · cases opened with
    | nil => split at h <;> cases h
    | cons expected outer => exact ⟨stop expected outer, fits_stop⟩
  · rename_i hnil hbang hquestion hslash
    obtain ⟨c, more, rfl⟩ := List.exists_cons_of_ne_nil hnil
    refine ⟨element opened, fits_element ?_⟩
    intro hc
    simp only [List.mem_cons, List.not_mem_nil, or_false] at hc
    rcases hc with rfl | rfl | rfl
    · exact hbang more rfl
    · exact hquestion more rfl
    · exact hslash more rfl

/-- What is read is the tag in front of a `>`, and the same with more behind it. -/
theorem read_append {form : Form} (hsteady : Steady form.cut) {cs : List Char} {found : Found}
    {opened' : List (List Char)} (h : form.read cs = .ok (found, opened')) :
    found.rest.length < cs.length ∧
      (∀ tail, form.read (cs ++ tail) = .ok (found.before tail, opened')) ∧
      ∃ tag, form.make tag = .ok (found.event, opened') := by
  unfold read at h
  cases hcut : form.cut cs with
  | none => rw [hcut] at h; cases h
  | some cut =>
      obtain ⟨tag, rest⟩ := cut
      obtain ⟨htext, hmore⟩ := hsteady hcut
      cases hmake : form.make tag with
      | error defect => simp [hcut, hmake, Except.map] at h
      | ok made =>
          simp only [hcut, hmake, Except.map] at h
          cases h
          refine ⟨?_, ?_, tag, hmake⟩
          · change rest.length < cs.length
            rw [htext, List.length_append, List.length_cons]
            omega
          · intro tail
            simp only [read, hmore tail, hmake]
            rfl

end Form

variable {opened opened' : List (List Char)} {found : Found}

/-- A piece of markup takes something of the text, is the same with more behind it, and opens and closes
what its event says. -/
theorem scanMarkup_spec (h : scanMarkup opened cs = .ok (found, opened')) :
    found.rest.length < cs.length ∧
      (∀ tail, scanMarkup opened (cs ++ tail) = .ok (found.before tail, opened')) ∧
      openBehind opened found.event = some opened' := by
  obtain ⟨form, hfits⟩ := Form.exists_fits h
  have hread : form.read cs = .ok (found, opened') := by
    simpa using (hfits.reads []).symm.trans (by rw [List.append_nil, h])
  obtain ⟨hlength, hmore, tag, hmake⟩ := Form.read_append hfits.steady hread
  refine ⟨hlength, ?_, hfits.opens tag _ hmake⟩
  intro tail
  rw [hfits.reads, hmore]


/-! ### Runs -/

/-- A place where no text goes on: the end, or the front of a piece of markup. -/
def TextEnds (cs : List Char) : Prop :=
  ∀ c ∈ cs.head?, c = '<'

/-- A scan without a defect: the elements open before it, the text, its events, and the elements
open behind it. -/
inductive Scanned : List (List Char) → List Char → List Event → List (List Char) → Prop
  | done (opened : List (List Char)) : Scanned opened [] [] opened
  | markup {opened between opened' : List (List Char)} {cs : List Char} {found : Found}
      {events : List Event} (hfound : scanMarkup opened cs = .ok (found, between))
      (more : Scanned between found.rest events opened') :
      Scanned opened ('<' :: cs) (found.event :: events) opened'
  | text {opened opened' : List (List Char)} {raw cs : List Char} {events : List Event}
      (hne : raw ≠ []) (hraw : ∀ c ∈ raw, c ≠ '<') (hends : TextEnds cs)
      (more : Scanned opened cs events opened') :
      Scanned opened (raw ++ cs) (.text raw :: events) opened'

theorem textEnds_dropWhile (cs : List Char) : TextEnds (cs.dropWhile (· != '<')) := by
  intro c hc
  have hnot := List.head?_dropWhile_not (· != '<') cs
  rw [Option.mem_def.mp hc] at hnot
  simpa using hnot

theorem takeWhile_of_textEnds {raw : List Char} (hraw : ∀ c ∈ raw, c ≠ '<') (hends : TextEnds cs) :
    (raw ++ cs).takeWhile (· != '<') = raw ∧ (raw ++ cs).dropWhile (· != '<') = cs := by
  have hall : ∀ c ∈ raw, (c != '<') = true := fun c hc => by simpa using hraw c hc
  rw [List.takeWhile_append_of_pos hall, List.dropWhile_append_of_pos hall]
  cases cs with
  | nil => exact ⟨List.append_nil raw, rfl⟩
  | cons c cs =>
      have hc : c = '<' := hends c rfl
      subst hc
      exact ⟨List.append_nil raw, rfl⟩

/-- A scan to the end is a run. -/
theorem exists_scanned {position fuel : Nat} {opened : List (List Char)}
    (hdefect : (scanFrom position opened fuel cs).defect = none) (hfuel : cs.length < fuel) :
    ∃ opened', Scanned opened cs ((scanFrom position opened fuel cs).tokens.map Token.event)
      opened' := by
  induction fuel generalizing position opened cs with
  | zero => exact absurd hfuel (Nat.not_lt_zero _)
  | succ fuel ih =>
      cases cs with
      | nil => exact ⟨opened, .done opened⟩
      | cons c cs =>
          by_cases hc : c = '<'
          · subst hc
            rw [scanFrom] at hdefect ⊢
            cases hfound : scanMarkup opened cs with
            | error defect => rw [hfound] at hdefect; cases hdefect
            | ok result =>
                obtain ⟨found, between⟩ := result
                have hlength := (scanMarkup_spec hfound).1
                simp only [hfound] at hdefect ⊢
                obtain ⟨opened', hmore⟩ := ih hdefect
                  (by simp only [List.length_cons] at hfuel; omega)
                exact ⟨opened', .markup hfound hmore⟩
          · have hne : (c :: cs).takeWhile (· != '<') ≠ [] := by
              rw [List.takeWhile_cons_of_pos (by simpa using hc)]
              exact List.cons_ne_nil _ _
            have hlength : ((c :: cs).dropWhile (· != '<')).length < fuel := by
              have hparts := congrArg List.length
                (@List.takeWhile_append_dropWhile _ (· != '<') (c :: cs))
              have hpos := List.length_pos_iff.mpr hne
              simp only [List.length_append, List.length_cons] at hparts hpos hfuel
              omega
            rw [scanFrom] at hdefect ⊢
            · obtain ⟨opened', hmore⟩ := ih hdefect hlength
              refine ⟨opened', ?_⟩
              have hrun := Scanned.text hne
                (fun d hd => by simpa using List.mem_takeWhile_imp hd) (textEnds_dropWhile _) hmore
              rwa [List.takeWhile_append_dropWhile] at hrun
            all_goals simp [hc]

/-- A run is what the scan does. -/
theorem Scanned.scanFrom_eq {opened opened' : List (List Char)} {events : List Event}
    (h : Scanned opened cs events opened') {position fuel : Nat} (hfuel : cs.length < fuel) :
    (scanFrom position opened fuel cs).defect = none ∧
      (scanFrom position opened fuel cs).tokens.map Token.event = events := by
  induction h generalizing position fuel with
  | done opened => cases fuel <;> exact ⟨rfl, rfl⟩
  | @markup opened between opened' cs found events hfound more ih =>
      cases fuel with
      | zero => exact absurd hfuel (Nat.not_lt_zero _)
      | succ fuel =>
          have hlength := (scanMarkup_spec hfound).1
          simp only [List.length_cons] at hfuel
          obtain ⟨hdefect, hevents⟩ := @ih (position + 1 + found.length) fuel (by omega)
          simp only [scanFrom, hfound]
          exact ⟨hdefect, by rw [List.map_cons, hevents]⟩
  | @text opened opened' raw cs events hne hraw hends more ih =>
      cases fuel with
      | zero => exact absurd hfuel (Nat.not_lt_zero _)
      | succ fuel =>
          obtain ⟨htake, hdrop⟩ := takeWhile_of_textEnds hraw hends
          obtain ⟨c, raw, rfl⟩ := List.exists_cons_of_ne_nil hne
          have hc : c ≠ '<' := hraw c List.mem_cons_self
          simp only [List.length_append, List.length_cons] at hfuel
          obtain ⟨hdefect, hevents⟩ := @ih (position + (c :: raw).length) fuel (by omega)
          rw [List.cons_append] at htake hdrop ⊢
          rw [scanFrom]
          · simp only [htake, hdrop]
            exact ⟨hdefect, by rw [List.map_cons, hevents]⟩
          all_goals simp [hc]

/-- Runs follow one another at the front of a piece of markup. -/
theorem Scanned.append {opened between opened' : List (List Char)} {tail : List Char}
    {events events' : List Event} (h : Scanned opened cs events between)
    (htail : Scanned between tail events' opened') (hends : TextEnds tail) :
    Scanned opened (cs ++ tail) (events ++ events') opened' := by
  induction h with
  | done opened => exact htail
  | @markup opened inner between cs found events hfound more ih =>
      have hmore := (scanMarkup_spec hfound).2.1 tail
      exact @Scanned.markup opened inner opened' _ (found.before tail) _ hmore (ih htail)
  | @text opened between raw cs events hne hraw hcs more ih =>
      rw [List.append_assoc]
      refine .text hne hraw ?_ (ih htail)
      cases cs with
      | nil => exact hends
      | cons c cs => exact hcs

/-! ### End tags -/

/-- The end tags of elements, the innermost of them first. -/
def endTags : List (List Char) → List Char
  | [] => []
  | name :: outer => '<' :: '/' :: name ++ '>' :: endTags outer

variable {name : List Char}

theorem ne_of_isNameChar {c d : Char} (hd : isNameChar d = false) (hc : isNameChar c = true) :
    c ≠ d := by
  rintro rfl
  rw [hd] at hc
  cases hc

theorem not_isMarkupBlank_of_isNameChar {c : Char} (hc : isNameChar c = true) :
    Text.isMarkupBlank c = false := by
  have hspace : c ≠ ' ' := ne_of_isNameChar (by decide) hc
  have htab : c ≠ '\t' := ne_of_isNameChar (by decide) hc
  have hreturn : c ≠ '\r' := ne_of_isNameChar (by decide) hc
  have hline : c ≠ '\n' := ne_of_isNameChar (by decide) hc
  simp [Text.isMarkupBlank, hspace, htab, hreturn, hline]

theorem cutTag_name (hname : ∀ c ∈ name, isNameChar c = true) (rest : List Char) :
    cutTag none (name ++ '>' :: rest) = some (name, rest) := by
  induction name with
  | nil => rfl
  | cons c name ih =>
      have hc := hname c List.mem_cons_self
      have hclose : c ≠ '>' := ne_of_isNameChar (by decide) hc
      have hquote : ¬(c = '"' ∨ c = '\'') := by
        rintro (h | h)
        · exact ne_of_isNameChar (by decide) hc h
        · exact ne_of_isNameChar (by decide) hc h
      rw [List.cons_append, cutTag, if_neg fun h => hclose h.1]
      simp only [if_neg hquote, ih fun d hd => hname d (List.mem_cons_of_mem _ hd), Option.map_some]

/-- No blank is taken from the end of a name. -/
theorem endName_name (hname : ∀ c ∈ name, isNameChar c = true) : endName name = name := by
  unfold endName trimEnd
  split
  · rfl
  · cases hback : name.reverse with
    | nil => rw [List.reverse_eq_nil_iff.mp hback]; rfl
    | cons c back =>
        have hc : c ∈ name := List.mem_reverse.mp (hback ▸ List.mem_cons_self)
        have hblank := not_isMarkupBlank_of_isNameChar (hname c hc)
        rw [List.dropWhile_cons_of_neg (by rw [hblank]; decide), ← hback, List.reverse_reverse]

theorem scanMarkup_endTag (hname : ∀ c ∈ name, isNameChar c = true) (outer : List (List Char))
    (rest : List Char) :
    scanMarkup (name :: outer) ('/' :: name ++ '>' :: rest) =
      .ok (⟨.stop name, name.length + 2, rest⟩, outer) := by
  have hcut : cutTag none ('/' :: name ++ '>' :: rest) = some ('/' :: name, rest) := by
    rw [List.cons_append, cutTag, if_neg (by decide)]
    simp only [if_neg (by decide : ¬('/' = '"' ∨ '/' = '\'')), cutTag_name hname, Option.map_some]
  rw [List.cons_append] at hcut ⊢
  simp [scanMarkup, hcut, endName_name hname]

/-- The end tags of the open elements, in turn, leave none open. -/
theorem scanned_endTags {names : List (List Char)}
    (hnames : ∀ name ∈ names, ∀ c ∈ name, isNameChar c = true) :
    Scanned names (endTags names) (names.map Event.stop) [] := by
  induction names with
  | nil => exact .done []
  | cons name outer ih =>
      have hname := hnames name List.mem_cons_self
      exact .markup (scanMarkup_endTag hname outer (endTags outer))
        (ih fun other hother => hnames other (List.mem_cons_of_mem _ hother))

theorem textEnds_endTags (names : List (List Char)) : TextEnds (endTags names) := by
  cases names with
  | nil => simp [TextEnds, endTags]
  | cons name outer => simp [TextEnds, endTags]

end Courier.Xml
