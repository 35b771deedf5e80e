import Courier.Proofs.OpenElements
import Courier.Proofs.Utf8
import Courier.Soap
import Mathlib.Data.List.Infix
/-!
What a fault is read from.  Markup with a defect has none; but that an element is still open at the end
is no defect, so a fault is read from markup whose last end tags are missing too, and it is the one that
the markup has with them.
-/
namespace Courier

namespace Text

/-- What occurs in a list occurs in it with more behind. -/
theorem occursIn_append {α : Type} [BEq α] [LawfulBEq α] {needle hay : List α}
    (h : occursIn needle hay = true) (tail : List α) : occursIn needle (hay ++ tail) = true := by
  induction hay with
  | nil =>
      rw [occursIn, List.isEmpty_iff] at h
      subst h
      cases tail <;> rfl
  | cons a hay ih =>
      rw [occursIn, Bool.or_eq_true] at h
      rw [List.cons_append, occursIn, Bool.or_eq_true]
      refine h.imp ?_ ih
      intro hprefix
      rw [List.isPrefixOf_iff_prefix] at hprefix ⊢
      exact hprefix.trans (List.prefix_append (a :: hay) tail)

end Text

namespace Xml

/-- The events of a text, up to its end or its first defect. -/
def events (text : String) : List Event :=
  (scan text.toList).tokens.map (·.event)

theorem withoutMark_append {cs : List Char} (hne : cs ≠ []) (tail : List Char) :
    withoutMark (cs ++ tail) = withoutMark cs ++ tail := by
  obtain ⟨c, cs, rfl⟩ := List.exists_cons_of_ne_nil hne
  rw [List.cons_append, withoutMark, withoutMark]
  split <;> rfl

theorem exists_scanned_text {text : String} (h : (scan text.toList).defect = none) :
    ∃ opened, Scanned [] (withoutMark text.toList) (events text) opened :=
  exists_scanned h (Nat.lt_succ_self _)

theorem Scanned.scan_eq {text : String} {run : List Event} {opened : List (List Char)}
    (h : Scanned [] (withoutMark text.toList) run opened) :
    (scan text.toList).defect = none ∧ events text = run :=
  h.scanFrom_eq (Nat.lt_succ_self _)

/-- A text with the end tags of elements behind it. -/
def closed (text : String) (names : List (List Char)) : String :=
  String.ofList (text.toList ++ endTags names)

theorem toList_closed (text : String) (names : List (List Char)) :
    (closed text names).toList = text.toList ++ endTags names :=
  String.toList_ofList

/-- With the end tags of what is open, a text is scanned as before, and then come the end tags. -/
theorem scanned_closed {text : String} {opened : List (List Char)} (hne : text.toList ≠ [])
    (h : Scanned [] (withoutMark text.toList) (events text) opened)
    (hnames : ∀ name ∈ opened, ∀ c ∈ name, isNameChar c = true) :
    Scanned [] (withoutMark (closed text opened).toList)
      (events text ++ opened.map Event.stop) [] := by
  rw [toList_closed, withoutMark_append hne]
  exact h.append (scanned_endTags hnames) (textEnds_endTags opened)

end Xml

namespace Soap

variable {path : List (List Char)} {fault found : Fault} {events : List Xml.Event}

/-- What one event does to the path and to the fault. -/
def gather (path : List (List Char)) (fault : Fault) :
    Xml.Event → Option (List (List Char) × Fault)
  | .start name _ => some (Xml.localName name :: path, fault)
  | .stop _ => some (path.tail, fault)
  | .text raw =>
      if (trimText raw).isEmpty then some (path, fault)
      else
        match Xml.unescape (trimText raw) with
        | .error _ => none
        | .ok cs => some (path, collect.place path fault cs)
  | .cdata content => some (path, collect.place path fault content)
  | .empty _ _ | .aside => some (path, fault)

theorem collect_cons (path : List (List Char)) (fault : Fault) (event : Xml.Event)
    (events : List Xml.Event) :
    collect path fault (event :: events) =
      (gather path fault event).bind fun next => collect next.1 next.2 events := by
  cases event with
  | text raw =>
      rw [collect, gather]
      by_cases hempty : (trimText raw).isEmpty = true
      · simp only [if_pos hempty, Option.bind_some]
      · simp only [if_neg hempty]
        cases Xml.unescape (trimText raw) <;> rfl
  | start name tag => rfl
  | stop name => rfl
  | empty name tag => rfl
  | cdata content => rfl
  | aside => rfl

/-- End tags behind the markup add nothing to a fault. -/
theorem collect_append_stops (path : List (List Char)) (fault : Fault) (events : List Xml.Event)
    (names : List (List Char)) :
    collect path fault (events ++ names.map Xml.Event.stop) = collect path fault events := by
  induction events generalizing path fault with
  | nil =>
      induction names generalizing path with
      | nil => rfl
      | cons name names ih => exact ih path.tail
  | cons event events ih =>
      rw [List.cons_append, collect_cons, collect_cons]
      congr 1
      funext next
      exact ih next.1 next.2

theorem exists_unescape_of_gather {raw : List Char} {next : List (List Char) × Fault}
    (h : gather path fault (.text raw) = some next) :
    ∃ cs, Xml.unescape (trimText raw) = .ok cs := by
  rw [gather] at h
  split at h
  · rename_i hempty
    exact ⟨[], by rw [List.isEmpty_iff.mp hempty]; rfl⟩
  · split at h
    · cases h
    · rename_i cs hcs
      exact ⟨cs, hcs⟩

/-- Where a fault is collected, the references of every text can be resolved. -/
theorem exists_unescape_of_collect (h : collect path fault events = some found) {raw : List Char}
    (hraw : Xml.Event.text raw ∈ events) : ∃ cs, Xml.unescape (trimText raw) = .ok cs := by
  induction events generalizing path fault with
  | nil => cases hraw
  | cons event events ih =>
      rw [collect_cons] at h
      obtain ⟨next, hnext, hrest⟩ := Option.bind_eq_some_iff.mp h
      rcases List.mem_cons.mp hraw with rfl | hlater
      · exact exists_unescape_of_gather hnext
      · exact ih hrest hlater

/-- A fault says something: it has a code or a reason. -/
def Fault.speaks (fault : Fault) : Bool :=
  !(fault.code.isEmpty && fault.reason.isEmpty)

theorem readFault_eq {body : Octets} {text : String} (htext : body.toText? = some text)
    (hword : Text.contains text "Fault" = true) (hdefect : (Xml.scan text.toList).defect = none) :
    readFault body = (collect [] {} (Xml.events text)).filter Fault.speaks := by
  unfold readFault
  cases hcollect : collect [] {} (Xml.events text) with
  | none =>
      rw [Xml.events] at hcollect
      simp [htext, hword, hdefect, hcollect]
  | some fault =>
      rw [Xml.events] at hcollect
      simp only [htext, hword, hdefect, hcollect, Option.filter_some, Fault.speaks]
      by_cases hempty : (fault.code.isEmpty && fault.reason.isEmpty) = true <;> simp [hempty]

theorem scanned_of_readFault {body : Octets} (h : readFault body = some fault) :
    ∃ text, body.toText? = some text ∧ Text.contains text "Fault" = true ∧
      (Xml.scan text.toList).defect = none := by
  unfold readFault at h
  split at h
  · cases h
  · rename_i text htext
    split at h
    · cases h
    · rename_i hword
      simp only at h
      split at h
      · cases h
      · rename_i hdefect
        exact ⟨text, htext, by simpa using hword, by simpa using hdefect⟩

/-- Whatever a fault is read from, at most the end tags of open elements are missing: it is text that is
scanned without a defect, it is balanced with the end tags of what is open and without them exactly if
nothing is open, and the references of its texts can be resolved.  With the end tags, the markup has the
same fault. -/
theorem readFault_up_to_end_tags {body : Octets} (h : readFault body = some fault) :
    ∃ text opened, body.toText? = some text ∧ (Xml.scan text.toList).defect = none ∧
      Xml.openAfter [] (Xml.events text) = some opened ∧
      Xml.Balanced (Xml.events text ++ opened.map Xml.Event.stop) ∧
      (Xml.Balanced (Xml.events text) ↔ opened = []) ∧
      (∀ raw, Xml.Event.text raw ∈ Xml.events text →
        ∃ cs, Xml.unescape (trimText raw) = .ok cs) ∧
      ((∀ name ∈ opened, ∀ c ∈ name, Xml.isNameChar c = true) →
        (Xml.scan (Xml.closed text opened).toList).defect = none ∧
        Xml.events (Xml.closed text opened) = Xml.events text ++ opened.map Xml.Event.stop ∧
        readFault (Octets.ofText (Xml.closed text opened)) = some fault) := by
  obtain ⟨text, htext, hword, hdefect⟩ := scanned_of_readFault h
  obtain ⟨opened, hscanned⟩ := Xml.exists_scanned_text hdefect
  rw [readFault_eq htext hword hdefect] at h
  obtain ⟨hcollect, hspeaks⟩ := Option.filter_eq_some_iff.mp h
  refine ⟨text, opened, htext, hdefect, hscanned.openAfter_eq, hscanned.balanced,
    hscanned.balanced_iff, fun raw hraw => exists_unescape_of_collect hcollect hraw, ?_⟩
  intro hnames
  have hne : text.toList ≠ [] := by
    intro hnil
    rw [Text.contains, hnil] at hword
    cases hword
  obtain ⟨hclosed, hevents⟩ := (Xml.scanned_closed hne hscanned hnames).scan_eq
  have hword' : Text.contains (Xml.closed text opened) "Fault" = true := by
    rw [Text.contains, Xml.toList_closed]
    exact Text.occursIn_append hword _
  refine ⟨hclosed, hevents, ?_⟩
  rw [readFault_eq (Text.Utf8.decode?_encode _) hword' hclosed, hevents, collect_append_stops,
    hcollect, Option.filter_some, if_pos hspeaks]

end Soap

namespace FaultReadingWitness

/-- An envelope that breaks off behind its fault. -/
def cutEnvelope : String :=
  "<Envelope><Body><Fault><faultstring>on &amp; off</faultstring></Fault>"

/-- The envelope that breaks off has the fault that it has with its last two end tags. -/
theorem same_fault_with_end_tags :
    Soap.readFault (Octets.ofText cutEnvelope) = some { reason := "on & off" } ∧
      Soap.readFault (Octets.ofText
        (Xml.closed cutEnvelope ["Body".toList, "Envelope".toList])) =
          some { reason := "on & off" } := by
  have hfault : Soap.readFault (Octets.ofText cutEnvelope) = some { reason := "on & off" } := by
    decide +kernel
  refine ⟨hfault, ?_⟩
  obtain ⟨text, opened, htext, _, hopen, _, _, _, hclosed⟩ := Soap.readFault_up_to_end_tags hfault
  obtain rfl : cutEnvelope = text := by
    rw [Octets.toText?, Text.Utf8.decode?_encode] at htext
    exact Option.some.inj htext
  have hbody : Xml.openAfter [] (Xml.events cutEnvelope) =
      some ["Body".toList, "Envelope".toList] := by decide +kernel
  obtain rfl := Option.some.inj (hbody.symm.trans hopen)
  have hnames : ∀ name ∈ ["Body".toList, "Envelope".toList],
      name.all Xml.isNameChar = true := by decide
  exact (hclosed fun name hname => List.all_eq_true.mp (hnames name hname)).2.2

/-- A fault is read where its own element is not closed, nor any element around it. -/
theorem fault_of_open_elements :
    Soap.readFault (Octets.ofText "<Envelope><Body><Fault><faultcode>X</faultcode>") =
        some { code := "X" } ∧
      ¬ Xml.Balanced (Xml.events "<Envelope><Body><Fault><faultcode>X</faultcode>") := by
  decide +kernel

end FaultReadingWitness

end Courier
