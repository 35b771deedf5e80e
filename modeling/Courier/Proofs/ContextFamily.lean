import Courier.Proofs.ScopeEnd
/-!
Families of contexts.  Contexts are made, derived from one another, copied and cancelled while time
passes.  A family says in plain words what became of them: who descends from whom, which deadline
each was given, and who was cancelled.  A context is over exactly when its family says so: because
it or one of its ancestors was cancelled, or else because a deadline on its line has come.
-/
namespace Courier

namespace Scope

/-- The earliest moment of some, or none where there are none. -/
structure Earliest (moments : Nat → Prop) (limit : Option Moment) : Prop where
  mem : ∀ t : Nat, limit = some t → moments t
  le : ∀ t : Nat, moments t → ∃ l : Nat, limit = some l ∧ l ≤ t

variable {moments others : Nat → Prop} {limit : Option Moment} {now t : Nat}

theorem Earliest.congr (h : Earliest moments limit) (heq : ∀ t, moments t ↔ others t) :
    Earliest others limit := by
  constructor
  · intro t ht
    exact (heq t).mp (h.mem t ht)
  · intro t ht
    exact h.le t ((heq t).mpr ht)

theorem earliest_none (hnone : ∀ t, ¬ moments t) : Earliest moments none := by
  constructor
  · intro t ht
    simp at ht
  · intro t ht
    exact absurd ht (hnone t)

/-- One more moment can only bring the earliest forward. -/
theorem Earliest.earlier (h : Earliest moments limit) (t : Nat) :
    Earliest (fun s => s = t ∨ moments s) (earlier limit (some t)) := by
  cases limit with
  | none =>
      constructor
      · intro s hs
        exact .inl (Option.some.inj hs).symm
      · rintro s (rfl | hs)
        · exact ⟨s, rfl, Nat.le_refl s⟩
        · obtain ⟨l, hl, _⟩ := h.le s hs
          simp at hl
  | some l =>
      constructor
      · intro s hs
        have hmin : min l t = s := Option.some.inj hs
        by_cases hle : l ≤ t
        · rw [Nat.min_eq_left hle] at hmin
          exact .inr (h.mem s (congrArg some hmin))
        · rw [Nat.min_eq_right (Nat.le_of_not_le hle)] at hmin
          exact .inl hmin.symm
      · intro s hs
        refine ⟨min l t, rfl, ?_⟩
        rcases hs with rfl | hs
        · exact Nat.min_le_right l s
        · obtain ⟨l', hl', hle⟩ := h.le s hs
          rw [← Option.some.inj hl'] at hle
          exact Nat.le_trans (Nat.min_le_left l t) hle

theorem Earliest.reached_iff (h : Earliest moments limit) :
    reached limit now = true ↔ ∃ t, moments t ∧ t ≤ now := by
  constructor
  · intro hreached
    cases limit with
    | none => simp [reached] at hreached
    | some l => exact ⟨l, h.mem l rfl, by simpa [reached] using hreached⟩
  · rintro ⟨t, ht, hnow⟩
    obtain ⟨l, rfl, hle⟩ := h.le t ht
    simpa [reached] using Nat.le_trans hle hnow

theorem ended?_eq_cancelled_iff {scope : Scope} :
    scope.ended? now = some .cancelled ↔ reached scope.cancelledAt now = true := by
  unfold ended?
  cases reached scope.cancelledAt now <;> cases reached scope.deadline now <;> simp

theorem ended?_eq_deadlineExceeded_iff {scope : Scope} :
    scope.ended? now = some .deadlineExceeded ↔
      ¬ reached scope.cancelledAt now = true ∧ reached scope.deadline now = true := by
  unfold ended?
  cases reached scope.cancelledAt now <;> cases reached scope.deadline now <;> simp

end Scope

namespace Cancellations

/-- The earliest cancellation of some marks is the earliest event that names one of them. -/
theorem earliest_events (marks : List Nat) (events : List (Nat × Moment)) :
    Scope.Earliest (fun t => ∃ mark ∈ marks, (mark, t) ∈ events) (earliest marks events) := by
  induction events with
  | nil =>
      apply Scope.earliest_none
      simp
  | cons event rest ih =>
      obtain ⟨mark, t⟩ := event
      by_cases hmark : mark ∈ marks
      · have hcomm : earliest marks ((mark, t) :: rest) =
            Scope.earlier (earliest marks rest) (some t) := by
          simp only [earliest, hmark, ↓reduceIte]
          cases earliest marks rest with
          | none => rfl
          | some l => exact congrArg some (Nat.min_comm t l)
        rw [hcomm]
        apply (ih.earlier t).congr
        intro s
        constructor
        · rintro (rfl | ⟨other, hother, hevent⟩)
          · exact ⟨mark, hmark, List.mem_cons_self⟩
          · exact ⟨other, hother, List.mem_cons_of_mem _ hevent⟩
        · rintro ⟨other, hother, hevent⟩
          rcases List.mem_cons.mp hevent with heq | hevent
          · exact .inl (congrArg Prod.snd heq)
          · exact .inr ⟨other, hother, hevent⟩
      · simp only [earliest, hmark, ↓reduceIte]
        apply ih.congr
        intro s
        constructor
        · rintro ⟨other, hother, hevent⟩
          exact ⟨other, hother, List.mem_cons_of_mem _ hevent⟩
        · rintro ⟨other, hother, hevent⟩
          rcases List.mem_cons.mp hevent with heq | hevent
          · have hmark' : other = mark := congrArg Prod.fst heq
            rw [hmark'] at hother
            exact absurd hother hmark
          · exact ⟨other, hother, hevent⟩

end Cancellations

/-- What is done with contexts.  A context goes by its number among all that were made. -/
inductive Contexts.Deed
  | root
  | child (parent : Nat)
  | clone (original : Nat)
  | childWithDeadline (parent : Nat) (t : Moment)
  | childWithTimeout (parent : Nat) (d : Span)
  | cancel (number : Nat)
  /-- time passes -/
  | pass (d : Span)
deriving Repr, DecidableEq

/-- The contexts that were made, the first in front, and the moment it is. -/
structure Contexts where
  clock : Moment := 0
  cancellations : Cancellations := {}
  made : List Context := []
deriving Repr, DecidableEq

namespace Contexts

def keep (contexts : Contexts) (made : Context × Cancellations) : Contexts :=
  { contexts with cancellations := made.2, made := contexts.made ++ [made.1] }

/-- Do something with the context of a number; where there is none, nothing is done. -/
def withContext (contexts : Contexts) (number : Nat) (act : Context → Contexts) : Contexts :=
  match contexts.made[number]? with
  | none => contexts
  | some context => act context

def perform (contexts : Contexts) : Deed → Contexts
  | .root => contexts.keep contexts.cancellations.root
  | .child parent =>
      contexts.withContext parent fun context => contexts.keep (contexts.cancellations.child context)
  | .clone original =>
      contexts.withContext original fun context => contexts.keep (context, contexts.cancellations)
  | .childWithDeadline parent t =>
      contexts.withContext parent fun context =>
        contexts.keep (contexts.cancellations.childWithDeadline context t)
  | .childWithTimeout parent d =>
      contexts.withContext parent fun context =>
        contexts.keep (contexts.cancellations.childWithTimeout context contexts.clock d)
  | .cancel number =>
      contexts.withContext number fun context =>
        { contexts with
          cancellations := contexts.cancellations.cancel context contexts.clock }
  | .pass d => { contexts with clock := contexts.clock + d }

def after (deeds : List Deed) : Contexts :=
  deeds.foldl perform {}

def ended? (contexts : Contexts) (number : Nat) : Option Interruption :=
  contexts.made[number]?.bind fun context =>
    (contexts.cancellations.scope context).ended? contexts.clock

end Contexts

/-- One of a family: whose child it is, and which deadline it was given. -/
structure Family.Member where
  parent : Option Nat
  given : Option Moment
deriving Repr, DecidableEq

/-- What the contexts are to each other.  A context and its copies are one member. -/
structure Family where
  clock : Moment := 0
  members : List Family.Member := []
  /-- for each context the member that it is -/
  roles : List Nat := []
  cancelled : List Nat := []
deriving Repr, DecidableEq

namespace Family

open Contexts (Deed)

def born (family : Family) (member : Member) : Family :=
  { family with
    members := family.members ++ [member]
    roles := family.roles ++ [family.members.length] }

/-- Do something with the member that a context is; where there is no such context, nothing is
done. -/
def withMember (family : Family) (number : Nat) (act : Nat → Family) : Family :=
  match family.roles[number]? with
  | none => family
  | some member => act member

def perform (family : Family) : Deed → Family
  | .root => family.born ⟨none, none⟩
  | .child parent => family.withMember parent fun member => family.born ⟨some member, none⟩
  | .clone original =>
      family.withMember original fun member => { family with roles := family.roles ++ [member] }
  | .childWithDeadline parent t =>
      family.withMember parent fun member => family.born ⟨some member, some t⟩
  | .childWithTimeout parent d =>
      family.withMember parent fun member => family.born ⟨some member, family.clock.add? d⟩
  | .cancel number =>
      family.withMember number fun member => { family with cancelled := member :: family.cancelled }
  | .pass d => { family with clock := family.clock + d }

def after (deeds : List Deed) : Family :=
  deeds.foldl perform {}

/-- The first member is the second, or a descendant of it. -/
inductive Descends (members : List Member) : Nat → Nat → Prop
  | self (n : Nat) : Descends members n n
  | up {n parent a : Nat} {member : Member} (hmember : members[n]? = some member)
      (hparent : member.parent = some parent) (h : Descends members parent a) :
      Descends members n a

/-- A deadline was given to a member or to one of its ancestors. -/
def Given (members : List Member) (n t : Nat) : Prop :=
  ∃ a member, Descends members n a ∧ members[a]? = some member ∧ member.given = some t

def Cancelled (family : Family) (n : Nat) : Prop :=
  ∃ a ∈ family.cancelled, Descends family.members n a

/-- A deadline that was given to a member or to one of its ancestors has come. -/
def Expired (family : Family) (n : Nat) : Prop :=
  ∃ t, Given family.members n t ∧ t ≤ family.clock

/-- Parents come before their children. -/
def Rooted (members : List Member) : Prop :=
  ∀ (n parent : Nat) (member : Member), members[n]? = some member →
    member.parent = some parent → parent < n

variable {members : List Member} {member : Member} {n a b t : Nat}

theorem Descends.trans (h : Descends members n a) (h' : Descends members a b) :
    Descends members n b := by
  induction h with
  | self => exact h'
  | up hmember hparent _ ih => exact .up hmember hparent (ih h')

theorem Descends.le (h : Descends members n a) (hrooted : Rooted members) : a ≤ n := by
  induction h with
  | self => exact Nat.le_refl _
  | up hmember hparent _ ih =>
      exact Nat.le_trans ih (Nat.le_of_lt (hrooted _ _ _ hmember hparent))

/-- A birth changes nothing for those who are there. -/
theorem descends_born_iff (hrooted : Rooted members) (member : Member) (hlt : n < members.length) :
    Descends (members ++ [member]) n a ↔ Descends members n a := by
  constructor
  · intro h
    induction h with
    | self => exact .self _
    | up hmember hparent _ ih =>
        rw [List.getElem?_append_left hlt] at hmember
        have hup := hrooted _ _ _ hmember hparent
        exact .up hmember hparent (ih (Nat.lt_trans hup hlt))
  · intro h
    induction h with
    | self => exact .self _
    | @up n parent _ other hmember hparent _ ih =>
        have hup := hrooted _ _ _ hmember hparent
        have hkept : (members ++ [member])[n]? = some other :=
          (List.getElem?_append_left hlt).trans hmember
        exact .up hkept hparent (ih (Nat.lt_trans hup hlt))

/-- The newborn descends from itself and from those its parent descends from. -/
theorem descends_newborn_iff (hrooted : Rooted members)
    (hparent : ∀ parent, member.parent = some parent → parent < members.length) :
    Descends (members ++ [member]) members.length a ↔
      a = members.length ∨ ∃ parent, member.parent = some parent ∧ Descends members parent a := by
  constructor
  · intro h
    cases h with
    | self => exact .inl rfl
    | up hmember hup h =>
        rw [List.getElem?_concat_length, Option.some.injEq] at hmember
        subst hmember
        exact .inr ⟨_, hup, (descends_born_iff hrooted member (hparent _ hup)).mp h⟩
  · rintro (rfl | ⟨parent, hup, h⟩)
    · exact .self _
    · have h := (descends_born_iff hrooted member (hparent _ hup)).mpr h
      exact .up List.getElem?_concat_length hup h

theorem given_born_iff (hrooted : Rooted members) (member : Member) (hlt : n < members.length) :
    Given (members ++ [member]) n t ↔ Given members n t := by
  constructor
  · rintro ⟨a, other, hdescends, hother, hgiven⟩
    have hdescends := (descends_born_iff hrooted member hlt).mp hdescends
    rw [List.getElem?_append_left (Nat.lt_of_le_of_lt (hdescends.le hrooted) hlt)] at hother
    exact ⟨a, other, hdescends, hother, hgiven⟩
  · rintro ⟨a, other, hdescends, hother, hgiven⟩
    have ha := Nat.lt_of_le_of_lt (hdescends.le hrooted) hlt
    refine ⟨a, other, (descends_born_iff hrooted member hlt).mpr hdescends, ?_, hgiven⟩
    rw [List.getElem?_append_left ha]
    exact hother

theorem given_newborn_iff (hrooted : Rooted members)
    (hparent : ∀ parent, member.parent = some parent → parent < members.length) :
    Given (members ++ [member]) members.length t ↔
      member.given = some t ∨
        ∃ parent, member.parent = some parent ∧ Given members parent t := by
  constructor
  · rintro ⟨a, other, hdescends, hother, hgiven⟩
    rcases (descends_newborn_iff hrooted hparent).mp hdescends with rfl | ⟨parent, hup, h⟩
    · rw [List.getElem?_concat_length, Option.some.injEq] at hother
      rw [hother]
      exact .inl hgiven
    · refine .inr ⟨parent, hup, (given_born_iff hrooted member (hparent _ hup)).mp ?_⟩
      exact ⟨a, other, (descends_born_iff hrooted member (hparent _ hup)).mpr h, hother, hgiven⟩
  · rintro (hgiven | ⟨parent, hup, hgiven⟩)
    · exact ⟨members.length, member, .self _, List.getElem?_concat_length, hgiven⟩
    · obtain ⟨a, other, hdescends, hother, hgiven⟩ :=
        (given_born_iff hrooted member (hparent _ hup)).mpr hgiven
      exact ⟨a, other, .up List.getElem?_concat_length hup hdescends, hother, hgiven⟩

theorem Rooted.born (hrooted : Rooted members)
    (hparent : ∀ parent, member.parent = some parent → parent < members.length) :
    Rooted (members ++ [member]) := by
  intro n parent other hother hup
  by_cases hlt : n < members.length
  · rw [List.getElem?_append_left hlt] at hother
    exact hrooted n parent other hother hup
  · have hle := Nat.le_of_not_lt hlt
    rw [List.getElem?_append_right hle, List.getElem?_singleton] at hother
    split at hother
    · rw [Option.some.injEq] at hother
      rw [← hother] at hup
      exact Nat.lt_of_lt_of_le (hparent parent hup) hle
    · simp at hother

/-- A context stands for a member: it carries the marks of the member and of all its ancestors, and
the earliest deadline that was given on that line. -/
structure Stands (members : List Member) (n : Nat) (context : Context) : Prop where
  lt : n < members.length
  head : context.lineage.head? = some n
  mem_iff : ∀ a, a ∈ context.lineage ↔ Descends members n a
  deadline : Scope.Earliest (Given members n) context.deadline

theorem Stands.born {context : Context} (h : Stands members n context) (hrooted : Rooted members)
    (member : Member) : Stands (members ++ [member]) n context := by
  refine ⟨?_, h.head, ?_, ?_⟩
  · rw [List.length_append]
    exact Nat.lt_add_right _ h.lt
  · intro a
    rw [descends_born_iff hrooted member h.lt]
    exact h.mem_iff a
  · apply h.deadline.congr
    intro t
    exact (given_born_iff hrooted member h.lt).symm

structure Mirrors (family : Family) (contexts : Contexts) : Prop where
  clock_eq : contexts.clock = family.clock
  nextMark_eq : contexts.cancellations.nextMark = family.members.length
  rooted : Rooted family.members
  length_eq : contexts.made.length = family.roles.length
  stands : ∀ (number : Nat) (context : Context) (n : Nat), contexts.made[number]? = some context →
    family.roles[number]? = some n → Stands family.members n context
  past : ∀ event ∈ contexts.cancellations.events, event.2 ≤ contexts.clock
  cancelled_iff : ∀ a, a ∈ family.cancelled ↔ ∃ t, (a, t) ∈ contexts.cancellations.events

variable {family : Family} {contexts : Contexts} {number : Nat} {context : Context}

/-- To a context belongs a member, and to a member a context. -/
theorem Mirrors.cases (h : Mirrors family contexts) (number : Nat) :
    (contexts.made[number]? = none ∧ family.roles[number]? = none) ∨
      ∃ context n, contexts.made[number]? = some context ∧ family.roles[number]? = some n ∧
        Stands family.members n context := by
  by_cases hlt : number < contexts.made.length
  · have hlt' : number < family.roles.length := h.length_eq ▸ hlt
    have hmade := List.getElem?_eq_getElem hlt
    have hrole := List.getElem?_eq_getElem hlt'
    exact .inr ⟨_, _, hmade, hrole, h.stands number _ _ hmade hrole⟩
  · have hle := Nat.le_of_not_lt hlt
    have hle' : family.roles.length ≤ number := h.length_eq ▸ hle
    exact .inl ⟨List.getElem?_eq_none hle, List.getElem?_eq_none hle'⟩

/-- A context that is made for a member keeps both sides in step. -/
theorem stands_concat {roles : List Nat} {made : List Context} (hlength : made.length = roles.length)
    (hold : ∀ (number : Nat) (context : Context) (n : Nat), made[number]? = some context →
      roles[number]? = some n → Stands members n context)
    (hnew : Stands members n context) (number : Nat) (other : Context) (m : Nat)
    (hmade : (made ++ [context])[number]? = some other) (hrole : (roles ++ [n])[number]? = some m) :
    Stands members m other := by
  by_cases hlt : number < made.length
  · rw [List.getElem?_append_left hlt] at hmade
    rw [List.getElem?_append_left (hlength ▸ hlt)] at hrole
    exact hold number other m hmade hrole
  · have hle := Nat.le_of_not_lt hlt
    rw [List.getElem?_append_right hle, List.getElem?_singleton] at hmade
    rw [List.getElem?_append_right (hlength ▸ hle), List.getElem?_singleton, ← hlength] at hrole
    split at hmade
    · simp_all
    · simp at hmade

/-- A birth on one side is a derivation on the other. -/
theorem Mirrors.derive (h : Mirrors family contexts) {lineage : List Nat}
    {deadline : Option Moment}
    (hparent : ∀ parent, member.parent = some parent → parent < family.members.length)
    (hlineage : ∀ a, a ∈ lineage ↔
      ∃ parent, member.parent = some parent ∧ Descends family.members parent a)
    (hdeadline : Scope.Earliest (fun t => member.given = some t ∨
      ∃ parent, member.parent = some parent ∧ Given family.members parent t) deadline) :
    Mirrors (family.born member)
      (contexts.keep (contexts.cancellations.derive lineage deadline)) := by
  have hnew : Stands (family.members ++ [member]) family.members.length
      ⟨contexts.cancellations.nextMark :: lineage, deadline⟩ := by
    refine ⟨?_, ?_, ?_, ?_⟩
    · simp
    · rw [h.nextMark_eq]
      rfl
    · intro a
      rw [descends_newborn_iff h.rooted hparent, List.mem_cons, hlineage, h.nextMark_eq]
    · apply hdeadline.congr
      intro t
      exact (given_newborn_iff h.rooted hparent).symm
  refine ⟨h.clock_eq, ?_, h.rooted.born hparent, ?_, ?_, h.past, h.cancelled_iff⟩
  · change contexts.cancellations.nextMark + 1 = (family.members ++ [member]).length
    rw [h.nextMark_eq, List.length_append, List.length_singleton]
  · change (contexts.made ++ [_]).length = (family.roles ++ [_]).length
    rw [List.length_append, List.length_append, h.length_eq]
    rfl
  · apply stands_concat h.length_eq ?_ hnew
    intro number context n hmade hrole
    exact (h.stands number context n hmade hrole).born h.rooted member

/-- What is derived from a context carries its marks, and its deadline unless a new one is
earlier. -/
theorem Mirrors.derive_below (h : Mirrors family contexts) (hstands : Stands family.members n context)
    {given deadline : Option Moment}
    (hdeadline : Scope.Earliest (fun t => given = some t ∨ Given family.members n t) deadline) :
    Mirrors (family.born ⟨some n, given⟩)
      (contexts.keep (contexts.cancellations.derive context.lineage deadline)) := by
  apply h.derive
  · rintro parent heq
    rw [← Option.some.inj heq]
    exact hstands.lt
  · intro a
    rw [hstands.mem_iff]
    simp
  · apply hdeadline.congr
    intro t
    simp

theorem Stands.inherited (hstands : Stands family.members n context) :
    Scope.Earliest (fun t => none = some t ∨ Given family.members n t) context.deadline := by
  apply hstands.deadline.congr
  intro t
  simp

theorem Stands.limited (hstands : Stands family.members n context) (t : Nat) :
    Scope.Earliest (fun s => some t = some s ∨ Given family.members n s)
      (Scope.earlier context.deadline (some t)) := by
  apply (hstands.deadline.earlier t).congr
  intro s
  rw [Option.some.injEq, eq_comm]

theorem Mirrors.clone (h : Mirrors family contexts) (hstands : Stands family.members n context) :
    Mirrors { family with roles := family.roles ++ [n] }
      (contexts.keep (context, contexts.cancellations)) := by
  refine ⟨h.clock_eq, h.nextMark_eq, h.rooted, ?_, ?_, h.past, h.cancelled_iff⟩
  · change (contexts.made ++ [_]).length = (family.roles ++ [_]).length
    rw [List.length_append, List.length_append, h.length_eq]
    rfl
  · exact stands_concat h.length_eq h.stands hstands

theorem Mirrors.cancel (h : Mirrors family contexts) (hstands : Stands family.members n context) :
    Mirrors { family with cancelled := n :: family.cancelled }
      { contexts with
        cancellations := contexts.cancellations.cancel context contexts.clock } := by
  have hcancel : contexts.cancellations.cancel context contexts.clock =
      { contexts.cancellations with
        events := (n, contexts.clock) :: contexts.cancellations.events } := by
    obtain ⟨lineage, deadline⟩ := context
    cases lineage with
    | nil => exact absurd hstands.head (by simp)
    | cons mark above =>
        have hmark : mark = n := Option.some.inj hstands.head
        rw [hmark]
        rfl
  rw [hcancel]
  refine ⟨h.clock_eq, h.nextMark_eq, h.rooted, h.length_eq, h.stands, ?_, ?_⟩
  · intro event hevent
    rcases List.mem_cons.mp hevent with rfl | hevent
    · exact Nat.le_refl _
    · exact h.past event hevent
  · intro a
    constructor
    · intro ha
      rcases List.mem_cons.mp ha with rfl | ha
      · exact ⟨contexts.clock, List.mem_cons_self⟩
      · obtain ⟨t, ht⟩ := (h.cancelled_iff a).mp ha
        exact ⟨t, List.mem_cons_of_mem _ ht⟩
    · rintro ⟨t, ht⟩
      rcases List.mem_cons.mp ht with heq | ht
      · have ha : a = n := congrArg Prod.fst heq
        rw [ha]
        exact List.mem_cons_self
      · exact List.mem_cons_of_mem _ ((h.cancelled_iff a).mpr ⟨t, ht⟩)

/-- Whatever is done, the contexts stay as their family says. -/
theorem Mirrors.perform (h : Mirrors family contexts) (deed : Deed) :
    Mirrors (family.perform deed) (contexts.perform deed) := by
  have hstep : ∀ number (act : Context → Contexts) (act' : Nat → Family),
      (∀ context n, Stands family.members n context → Mirrors (act' n) (act context)) →
      Mirrors (family.withMember number act') (contexts.withContext number act) := by
    intro number act act' hact
    rcases h.cases number with ⟨hmade, hrole⟩ | ⟨context, n, hmade, hrole, hstands⟩
    · simpa only [withMember, Contexts.withContext, hmade, hrole] using h
    · simpa only [withMember, Contexts.withContext, hmade, hrole] using hact context n hstands
  cases deed with
  | root =>
      apply h.derive
      · simp
      · simp
      · apply Scope.earliest_none
        simp
  | child parent =>
      apply hstep
      intro context n hstands
      exact h.derive_below hstands hstands.inherited
  | clone original =>
      apply hstep
      intro context n hstands
      exact h.clone hstands
  | childWithDeadline parent t =>
      apply hstep
      intro context n hstands
      exact h.derive_below hstands (hstands.limited t)
  | childWithTimeout parent d =>
      apply hstep
      intro context n hstands
      rw [← h.clock_eq]
      cases hadd : contexts.clock.add? d with
      | none =>
          simp only [Cancellations.childWithTimeout, hadd]
          exact h.derive_below hstands hstands.inherited
      | some t =>
          simp only [Cancellations.childWithTimeout, hadd]
          exact h.derive_below hstands (hstands.limited t)
  | cancel number =>
      apply hstep
      intro context n hstands
      exact h.cancel hstands
  | pass d =>
      refine ⟨?_, h.nextMark_eq, h.rooted, h.length_eq, h.stands, ?_, h.cancelled_iff⟩
      · change contexts.clock + d = family.clock + d
        rw [h.clock_eq]
      · intro event hevent
        exact Nat.le_trans (h.past event hevent) (Nat.le_add_right _ d)

theorem Mirrors.reached_cancelledAt_iff (h : Mirrors family contexts)
    (hstands : Stands family.members n context) :
    Scope.reached (contexts.cancellations.scope context).cancelledAt contexts.clock = true ↔
      family.Cancelled n := by
  refine (Cancellations.earliest_events context.lineage _).reached_iff.trans ?_
  constructor
  · rintro ⟨t, ⟨a, ha, hevent⟩, _⟩
    exact ⟨a, (h.cancelled_iff a).mpr ⟨t, hevent⟩, (hstands.mem_iff a).mp ha⟩
  · rintro ⟨a, ha, hdescends⟩
    obtain ⟨t, hevent⟩ := (h.cancelled_iff a).mp ha
    exact ⟨t, ⟨a, (hstands.mem_iff a).mpr hdescends, hevent⟩, h.past _ hevent⟩

theorem Mirrors.reached_deadline_iff (h : Mirrors family contexts)
    (hstands : Stands family.members n context) :
    Scope.reached (contexts.cancellations.scope context).deadline contexts.clock = true ↔
      family.Expired n := by
  rw [h.clock_eq]
  exact hstands.deadline.reached_iff

/-- A context is over when its family says so, and for the reason that the family gives. -/
theorem Mirrors.ended?_iff (h : Mirrors family contexts) (hrole : family.roles[number]? = some n) :
    (contexts.ended? number = some .cancelled ↔ family.Cancelled n) ∧
    (contexts.ended? number = some .deadlineExceeded ↔
      ¬ family.Cancelled n ∧ family.Expired n) := by
  rcases h.cases number with ⟨_, hnone⟩ | ⟨context, m, hmade, hrole', hstands⟩
  · simp [hnone] at hrole
  · rw [hrole, Option.some.injEq] at hrole'
    subst hrole'
    have hended : contexts.ended? number =
        (contexts.cancellations.scope context).ended? contexts.clock := by
      rw [Contexts.ended?, hmade, Option.bind_some]
    constructor
    · rw [hended, Scope.ended?_eq_cancelled_iff, h.reached_cancelledAt_iff hstands]
    · rw [hended, Scope.ended?_eq_deadlineExceeded_iff, h.reached_cancelledAt_iff hstands,
        h.reached_deadline_iff hstands]

theorem Mirrors.ended?_ne_none_iff (h : Mirrors family contexts)
    (hrole : family.roles[number]? = some n) :
    contexts.ended? number ≠ none ↔ family.Cancelled n ∨ family.Expired n := by
  obtain ⟨hcancelled, hexpired⟩ := h.ended?_iff hrole
  constructor
  · intro hended
    obtain ⟨reason, hreason⟩ := Option.ne_none_iff_exists'.mp hended
    cases reason with
    | cancelled => exact .inl (hcancelled.mp hreason)
    | deadlineExceeded => exact .inr (hexpired.mp hreason).2
  · intro hover
    by_cases hc : family.Cancelled n
    · simp [hcancelled.mpr hc]
    · simp [hexpired.mpr ⟨hc, hover.resolve_left hc⟩]

/-- A family grows: nobody leaves it, nobody is called back, and the clock does not go back. -/
structure Grows (family later : Family) : Prop where
  clock_le : family.clock ≤ later.clock
  members : family.members <+: later.members
  roles : family.roles <+: later.roles
  cancelled : family.cancelled ⊆ later.cancelled

variable {later : Family}

theorem Grows.refl (family : Family) : Grows family family :=
  ⟨Nat.le_refl _, List.prefix_rfl, List.prefix_rfl, List.Subset.refl _⟩

theorem Grows.trans {last : Family} (h : Grows family later) (h' : Grows later last) :
    Grows family last :=
  ⟨Nat.le_trans h.clock_le h'.clock_le, h.members.trans h'.members, h.roles.trans h'.roles,
    List.Subset.trans h.cancelled h'.cancelled⟩

theorem getElem?_of_isPrefix {α : Type} {xs ys : List α} {i : Nat} {x : α} (h : xs <+: ys)
    (hx : xs[i]? = some x) : ys[i]? = some x := by
  obtain ⟨more, rfl⟩ := h
  rw [List.getElem?_append_left (List.getElem?_eq_some_iff.mp hx).1]
  exact hx

theorem Descends.grows (h : Grows family later) (hdescends : Descends family.members n a) :
    Descends later.members n a := by
  induction hdescends with
  | self => exact .self _
  | up hmember hparent _ ih => exact .up (getElem?_of_isPrefix h.members hmember) hparent ih

theorem Cancelled.grows (h : Grows family later) (hcancelled : family.Cancelled n) :
    later.Cancelled n := by
  obtain ⟨a, ha, hdescends⟩ := hcancelled
  exact ⟨a, h.cancelled ha, hdescends.grows h⟩

theorem Expired.grows (h : Grows family later) (hexpired : family.Expired n) :
    later.Expired n := by
  obtain ⟨t, ⟨a, member, hdescends, hmember, hgiven⟩, hle⟩ := hexpired
  exact ⟨t, ⟨a, member, hdescends.grows h, getElem?_of_isPrefix h.members hmember, hgiven⟩,
    Nat.le_trans hle h.clock_le⟩

end Family

namespace ContextFamilyWitness

open Contexts (Deed)

/-- A context with a tenth of a second to live; two children of it, of which the first is cancelled by
its copy before the time is over. -/
def deeds : List Deed :=
  [.root, .childWithTimeout 0 (Span.ofMillis 100), .child 1, .child 1, .clone 2, .cancel 4,
    .pass (Span.ofMillis 150)]

end ContextFamilyWitness
end Courier
