/-!
Time.  Moments and spans are whole nanoseconds; a moment counts from the start of the clock.  The
clock stands still only on whole milliseconds: whoever waits for a moment wakes at the first whole
millisecond that is not before it.
-/
namespace Courier

/-- A point in time, in nanoseconds since the start. -/
abbrev Moment := Nat

/-- A length of time in nanoseconds. -/
abbrev Span := Nat

namespace Span

def ofNanos (n : Nat) : Span := n

def ofMillis (n : Nat) : Span := n * 1000000

def ofSeconds (n : Nat) : Span := n * 1000000000

def seconds (d : Span) : Nat := d / 1000000000

/-- The nanoseconds beyond the whole seconds. -/
def subsecond (d : Span) : Nat := d % 1000000000

def millis (d : Span) : Nat := d / 1000000

/-- The longest span that can be written: 64 bits of seconds. -/
def longest : Span := Nat.pow 2 64 * 1000000000 - 1

end Span

namespace Moment

/-- The first whole millisecond that is not before the moment. -/
def tick (t : Moment) : Moment :=
  (t + 999999) / 1000000 * 1000000

theorem le_tick (t : Nat) : t ≤ tick t := by
  unfold tick; omega

theorem tick_mono {s t : Moment} (h : s ≤ t) : tick s ≤ tick t :=
  Nat.mul_le_mul_right _ (Nat.div_le_div_right (Nat.add_le_add_right h _))

/-- The clock ends after 63 bits of seconds. -/
def last : Nat := Nat.pow 2 63 * 1000000000

/-- The moment a span later, if the clock has it. -/
def add? (t : Moment) (d : Span) : Option Moment :=
  if t + d < last then some (t + d) else none

/-- How long a sleeper waits when the moment it waits for is past the end of the clock. -/
def farAway : Span := Span.ofSeconds (86400 * 365 * 30)

/-- The moment at which a sleep that starts now ends. -/
def wakeAfter (t : Moment) (d : Span) : Moment :=
  (t.add? d).getD (t + farAway)

end Moment
end Courier
