import FrameCache.Duration

/-!
# Instants and clocks

An `Instant` counts nanoseconds since the epoch of its clock and never passes
`horizon`.  Arithmetic on instants saturates at both ends.  A `Clock` shows an instant
until it is moved: `Clock.advance` steps past the horizon back to the epoch, `Clock.set`
only moves forward, and `Clock.next` moves a clock that nobody sets.
-/

namespace FrameCache

/-- The number of nanoseconds from the epoch to the last instant there is. -/
def horizon : Nat := UInt64.size - 1

/-- An instant, in nanoseconds since the epoch of its clock. -/
@[ext]
structure Instant where
  /-- The nanoseconds since the epoch. -/
  nanos : Nat
  /-- No instant lies beyond the horizon. -/
  le_horizon : nanos ≤ horizon
deriving DecidableEq

namespace Instant

instance : LT Instant := ⟨fun s t => s.nanos < t.nanos⟩

instance : LE Instant := ⟨fun s t => s.nanos ≤ t.nanos⟩

instance (s t : Instant) : Decidable (s < t) :=
  inferInstanceAs (Decidable (s.nanos < t.nanos))

instance (s t : Instant) : Decidable (s ≤ t) :=
  inferInstanceAs (Decidable (s.nanos ≤ t.nanos))

theorem lt_iff {s t : Instant} :
  s < t ↔ s.nanos < t.nanos
  := Iff.rfl

theorem le_iff {s t : Instant} :
  s ≤ t ↔ s.nanos ≤ t.nanos
  := Iff.rfl

theorem not_le {s t : Instant} :
  ¬ s ≤ t ↔ t < s
  := Nat.not_le

theorem le_trans {s t u : Instant} (h : s ≤ t) (h' : t ≤ u) :
  s ≤ u
  := Nat.le_trans h h'

/-- The epoch. -/
def epoch : Instant := ⟨0, Nat.zero_le _⟩

/-- The instant `n` nanoseconds after the epoch, or the last one. -/
def ofNanos (n : Nat) : Instant := ⟨min n horizon, Nat.min_le_right _ _⟩

/-- The instant `d` after the epoch, or the last one. -/
def ofDuration (d : Duration) : Instant := ofNanos d.nanos

/-- The instant `d` after `t`, or the last one. -/
def after (t : Instant) (d : Duration) : Instant := ofNanos (t.nanos + d.nanos)

/-- The instant `d` before `t`, or the epoch. -/
def before (t : Instant) (d : Duration) : Instant :=
  ⟨t.nanos - d.nanos, Nat.le_trans (Nat.sub_le _ _) t.le_horizon⟩

/-- The time from `s` to `t`, or none when `s` is the later one. -/
def since (t s : Instant) : Duration := ⟨t.nanos - s.nanos⟩

@[simp]
theorem nanos_ofNanos (n : Nat) :
  (ofNanos n).nanos = min n horizon
  := rfl

@[simp]
theorem nanos_after (t : Instant) (d : Duration) :
  (t.after d).nanos = min (t.nanos + d.nanos) horizon
  := rfl

@[simp]
theorem nanos_before (t : Instant) (d : Duration) :
  (t.before d).nanos = t.nanos - d.nanos
  := rfl

@[simp]
theorem nanos_since (t s : Instant) :
  (t.since s).nanos = t.nanos - s.nanos
  := rfl

end Instant

/-- A clock that moves only when it is told to. -/
@[ext]
structure Clock where
  /-- The reading of the clock. -/
  now : Instant
deriving DecidableEq

namespace Clock

/-- A clock at its epoch. -/
def start : Clock := ⟨.epoch⟩

/-- The clock `d` later.  A length beyond the horizon counts as the horizon, and past the
horizon the clock starts again at the epoch. -/
def advance (c : Clock) (d : Duration) : Clock :=
  ⟨(c.now.nanos + min d.nanos horizon) % (horizon + 1), by
    have : (c.now.nanos + min d.nanos horizon) % (horizon + 1) < horizon + 1 :=
      Nat.mod_lt _ (Nat.succ_pos _)
    exact Nat.le_of_lt_succ this⟩

/-- The time between two readings of a clock that runs by itself. -/
def moment : Duration := ⟨1000⟩

/-- A clock that runs by itself, at its next reading. -/
def next (c : Clock) : Clock := c.advance moment

/-- The clock moved to `d` after the epoch, unless it is past that already. -/
def set (c : Clock) (d : Duration) : Clock :=
  if c.now ≤ .ofDuration d then ⟨.ofDuration d⟩ else c

end Clock

end FrameCache
