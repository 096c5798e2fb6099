/-!
# Lengths of time

A `Duration` is a length of time in whole nanoseconds, of any size.  `Duration.forever`
is the longest length a clock can be asked for; it exceeds every span between two
instants.
-/

namespace FrameCache

/-- A length of time in whole nanoseconds. -/
@[ext]
structure Duration where
  /-- The number of nanoseconds. -/
  nanos : Nat
deriving DecidableEq

namespace Duration

instance : LT Duration := ⟨fun d e => d.nanos < e.nanos⟩

instance : LE Duration := ⟨fun d e => d.nanos ≤ e.nanos⟩

instance (d e : Duration) : Decidable (d < e) := inferInstanceAs (Decidable (d.nanos < e.nanos))

instance (d e : Duration) : Decidable (d ≤ e) := inferInstanceAs (Decidable (d.nanos ≤ e.nanos))

theorem lt_iff {d e : Duration} :
  d < e ↔ d.nanos < e.nanos
  := Iff.rfl

theorem le_iff {d e : Duration} :
  d ≤ e ↔ d.nanos ≤ e.nanos
  := Iff.rfl

/-- The empty length of time. -/
def zero : Duration := ⟨0⟩

/-- The length of `n` seconds. -/
def ofSeconds (n : Nat) : Duration := ⟨n * 1000000000⟩

/-- The longest length of time: `2 ^ 64` seconds less one nanosecond. -/
def forever : Duration := ⟨UInt64.size * 1000000000 - 1⟩

/-- The `n`-th part of `d`, rounded down to a nanosecond. -/
def part (d : Duration) (n : Nat) : Duration := ⟨d.nanos / n⟩

/-- What is left of `d` when `e` is taken off, or nothing when `e` is the longer one. -/
def less (d e : Duration) : Duration := ⟨d.nanos - e.nanos⟩

end Duration

end FrameCache
