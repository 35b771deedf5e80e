import Courier.Proofs.MarkupScan
/-!
The elements that stand open behind markup.  A scan without a defect has only matching end tags; what
may be missing are the end tags of the elements that are open at its end, and markup is balanced
exactly when there are none.
-/
namespace Courier.Xml

variable {opened opened' : List (List Char)} {cs : List Char} {events rest : List Event}

/-- The elements open behind a run of events. -/
def openAfter (opened : List (List Char)) : List Event → Option (List (List Char))
  | [] => some opened
  | event :: rest => (openBehind opened event).bind fun between => openAfter between rest

theorem openAfter_append (opened : List (List Char)) (events rest : List Event) :
    openAfter opened (events ++ rest) =
      (openAfter opened events).bind fun between => openAfter between rest := by
  induction events generalizing opened with
  | nil => rfl
  | cons event events ih =>
      rw [List.cons_append, openAfter, openAfter, Option.bind_assoc]
      congr 1
      funext between
      exact ih between

theorem openAfter_stops (names : List (List Char)) :
    openAfter names (names.map Event.stop) = some [] := by
  induction names with
  | nil => rfl
  | cons name outer ih => simpa [openAfter, openBehind] using ih

/-! ### Balanced markup -/

/-- Does an event leave the open elements as they are? -/
def Event.isPlain : Event → Bool
  | .start _ _ | .stop _ => false
  | .empty _ _ | .text _ | .cdata _ | .aside => true

/-- Markup in which every element that is opened is closed by an end tag of its name. -/
inductive Balanced : List Event → Prop
  | nil : Balanced []
  | plain {event : Event} {rest : List Event} (hplain : event.isPlain = true)
      (hrest : Balanced rest) : Balanced (event :: rest)
  | element (name tag : List Char) {inner rest : List Event} (hinner : Balanced inner)
      (hrest : Balanced rest) : Balanced (.start name tag :: (inner ++ .stop name :: rest))

theorem openBehind_plain {event : Event} (hplain : event.isPlain = true)
    (opened : List (List Char)) : openBehind opened event = some opened := by
  cases event <;> first | rfl | cases hplain

theorem Balanced.append (h : Balanced events) (hrest : Balanced rest) :
    Balanced (events ++ rest) := by
  induction h with
  | nil => exact hrest
  | plain hplain _ ih => exact .plain hplain ih
  | element name tag hinner _ _ ih =>
      rw [List.cons_append, List.append_assoc, List.cons_append]
      exact .element name tag hinner ih

/-- Balanced markup leaves open what was open before it. -/
theorem Balanced.openAfter_eq (h : Balanced events) (opened : List (List Char)) :
    openAfter opened events = some opened := by
  induction h generalizing opened with
  | nil => rfl
  | plain hplain _ ih =>
      rw [openAfter, openBehind_plain hplain, Option.bind_some, ih]
  | element name tag _ _ ihinner ihrest =>
      rw [openAfter, openBehind, Option.bind_some, openAfter_append, ihinner, Option.bind_some,
        openAfter, openBehind, if_pos rfl, Option.bind_some, ihrest]

/-- Markup that closes elements in turn, each behind balanced markup, and is balanced after them. -/
inductive Closes : List (List Char) → List Event → Prop
  | none {events : List Event} (h : Balanced events) : Closes [] events
  | next {name : List Char} {outer : List (List Char)} {inner rest : List Event}
      (hinner : Balanced inner) (hrest : Closes outer rest) :
      Closes (name :: outer) (inner ++ .stop name :: rest)

theorem Closes.behind (hevents : Balanced events) (h : Closes opened rest) :
    Closes opened (events ++ rest) := by
  cases h with
  | none hrest => exact .none (hevents.append hrest)
  | next hinner hrest =>
      rw [← List.append_assoc]
      exact .next (hevents.append hinner) hrest

/-- Markup behind which nothing is open closes what was open before it. -/
theorem closes_of_openAfter (h : openAfter opened events = some []) : Closes opened events := by
  induction events generalizing opened with
  | nil =>
      cases h
      exact .none .nil
  | cons event rest ih =>
      by_cases hplain : event.isPlain = true
      · rw [openAfter, openBehind_plain hplain, Option.bind_some] at h
        exact (ih h).behind (.plain hplain .nil)
      · cases event with
        | start name tag =>
            -- the rest closes the new element first
            obtain _ | ⟨hinner, hrest⟩ := @ih (name :: opened) h
            have helement := Balanced.element name tag hinner .nil
            simpa using hrest.behind helement
        | stop name =>
            cases opened with
            | nil => cases h
            | cons expected outer =>
                rw [openAfter, openBehind] at h
                split at h
                · rename_i hname
                  subst hname
                  exact .next .nil (ih h)
                · cases h
        | empty _ _ | text _ | cdata _ | aside => exact absurd rfl hplain

/-- Markup is balanced exactly if nothing is open behind it. -/
theorem balanced_iff : Balanced events ↔ openAfter [] events = some [] := by
  refine ⟨fun h => h.openAfter_eq [], ?_⟩
  intro h
  obtain ⟨hevents⟩ := closes_of_openAfter h
  exact hevents

instance : Decidable (Balanced events) :=
  decidable_of_iff _ balanced_iff.symm

/-! ### Scans -/

/-- The elements open behind a scan are those that its events leave open. -/
theorem Scanned.openAfter_eq (h : Scanned opened cs events opened') :
    openAfter opened events = some opened' := by
  induction h with
  | done opened => rfl
  | markup hfound _ ih =>
      rw [openAfter, (scanMarkup_spec hfound).2.2, Option.bind_some, ih]
  | text _ _ _ _ ih => exact ih

/-- Whatever a scan to the end leaves open, only the end tags of it are missing. -/
theorem Scanned.balanced (h : Scanned [] cs events opened) :
    Balanced (events ++ opened.map Event.stop) := by
  rw [balanced_iff, openAfter_append, h.openAfter_eq, Option.bind_some, openAfter_stops]

theorem Scanned.balanced_iff (h : Scanned [] cs events opened) :
    Balanced events ↔ opened = [] := by
  rw [Xml.balanced_iff, h.openAfter_eq, Option.some.injEq]

end Courier.Xml
