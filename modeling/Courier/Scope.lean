import Courier.Clock
/-!
Scopes: until when a piece of work may go on.  A scope ends when it is cancelled or when its deadline
passes, whichever comes first; at a tie it counts as cancelled.  Contexts are nested: each carries
the marks of all its ancestors, a cancellation names one mark, and it reaches every context whose
lineage holds that mark.  Deadlines are inherited and can only be moved forward.
-/
namespace Courier

/-- Why work was stopped. -/
inductive Interruption
  | cancelled
  | deadlineExceeded
deriving Repr, DecidableEq, Inhabited

def Interruption.message : Interruption → String
  | .cancelled => "context canceled"
  | .deadlineExceeded => "context deadline exceeded"

/-- The moments at which work must stop. -/
structure Scope where
  /-- Whoever cancels is awake at that moment, and the clock stands on whole milliseconds only: a
  cancellation falls on a whole millisecond, and work stops at that very moment. -/
  cancelledAt : Option Moment
  /-- Any moment, since a deadline is reckoned and nobody is awake there: work stops at the first
  whole millisecond that is not before it. -/
  deadline : Option Moment
deriving Repr, DecidableEq, Inhabited

namespace Scope

def unbounded : Scope := ⟨none, none⟩

def reached (limit : Option Moment) (now : Moment) : Bool :=
  match limit with
  | none => false
  | some t => decide (t ≤ now)

/-- Why the scope is over, if it is. -/
def ended? (scope : Scope) (now : Moment) : Option Interruption :=
  if reached scope.cancelledAt now then some .cancelled
  else if reached scope.deadline now then some .deadlineExceeded
  else none

/-- The earlier of two moments, of which either may be missing. -/
def earlier : Option Moment → Option Moment → Option Moment
  | none, t => t
  | s, none => s
  | some s, some t => some (min s t)

def limit (scope : Scope) : Option Moment :=
  earlier scope.cancelledAt scope.deadline

/-- The earlier of a moment and the end of the scope. -/
def cap (scope : Scope) (t : Moment) : Moment :=
  match scope.limit with
  | none => t
  | some l => min t l

/-- The same scope with a deadline that is no later than `t`. -/
def withDeadline (scope : Scope) (t : Moment) : Scope :=
  { scope with deadline := earlier scope.deadline (some t) }

/-- The same scope, over after at most the span `d` from now; a span that passes the end of the clock
sets no deadline. -/
def withTimeout (scope : Scope) (now : Moment) (d : Span) : Scope :=
  match now.add? d with
  | some t => scope.withDeadline t
  | none => scope

end Scope

/-- A node in a tree of scopes: its own mark in front of the marks of its ancestors, and its
deadline. -/
structure Context where
  lineage : List Nat
  deadline : Option Moment
deriving Repr, DecidableEq, Inhabited

/-- Which marks were cancelled, and when: on whole milliseconds, as only there somebody can. -/
structure Cancellations where
  nextMark : Nat := 0
  events : List (Nat × Moment) := []
deriving Repr, DecidableEq, Inhabited

namespace Cancellations

/-- The earliest cancellation of any of these marks. -/
def earliest (marks : List Nat) : List (Nat × Moment) → Option Moment
  | [] => none
  | (mark, t) :: rest =>
      if mark ∈ marks then Scope.earlier (some t) (earliest marks rest) else earliest marks rest

/-- Cancel a context, and with it all its descendants, at a moment on which the clock stands. -/
def cancel (cs : Cancellations) (context : Context) (t : Moment) : Cancellations :=
  match context.lineage with
  | [] => cs
  | mark :: _ => { cs with events := (mark, t) :: cs.events }

/-- A context below the ancestors of this lineage. -/
def derive (cs : Cancellations) (lineage : List Nat) (deadline : Option Moment) :
    Context × Cancellations :=
  (⟨cs.nextMark :: lineage, deadline⟩, { cs with nextMark := cs.nextMark + 1 })

def root (cs : Cancellations) : Context × Cancellations :=
  cs.derive [] none

/-- A child with the deadline of its parent. -/
def child (cs : Cancellations) (parent : Context) : Context × Cancellations :=
  cs.derive parent.lineage parent.deadline

/-- A child with a deadline of its own; that of the parent still holds. -/
def childWithDeadline (cs : Cancellations) (parent : Context) (t : Moment) :
    Context × Cancellations :=
  cs.derive parent.lineage (Scope.earlier parent.deadline (some t))

/-- A child that ends after the span `d`; a span that passes the end of the clock sets no
deadline. -/
def childWithTimeout (cs : Cancellations) (parent : Context) (now : Moment) (d : Span) :
    Context × Cancellations :=
  match now.add? d with
  | some t => cs.childWithDeadline parent t
  | none => cs.child parent

def scope (cs : Cancellations) (context : Context) : Scope :=
  ⟨earliest context.lineage cs.events, context.deadline⟩

end Cancellations
end Courier
