import FrameCache.Duration.Text

/-!
# Configuration

`Config` holds the time constants of the caches and of the frame loop.  The only setting
taken from outside is the lifetime, given as text to `Config.override`; a text that is not
a duration leaves the configuration as it is.
-/

namespace FrameCache

/-- The time constants of the caches and the frame loop. -/
@[ext]
structure Config where
  /-- How long an untouched entry stays alive. -/
  lifetime : Duration := .ofSeconds 60
  /-- The least time between two sweeps. -/
  sweepGap : Duration := .ofSeconds 10
  /-- How long before the end of their life the entries of a static canvas are renewed. -/
  walkMargin : Duration := .ofSeconds 1
  /-- Frame ticks per second. -/
  tickRate : UInt32 := 60
deriving DecidableEq

namespace Config

/-- The configuration without any setting. -/
def standard : Config := {}

/-- The configuration with another tick rate, which is at least one per second. -/
def withTickRate (c : Config) (rate : UInt32) : Config :=
  { c with tickRate := max rate 1 }

/-- The configuration with the lifetime that `text` spells, if it spells one. -/
def override (c : Config) (text : Option String) : Config :=
  match text.map Duration.parse with
  | some (.ok d) => { c with lifetime := d }
  | _ => c

/-- Frames without repaints sweep once this much time has passed: half a lifetime. -/
def idleGap (c : Config) : Duration := c.lifetime.part 2

/-- The time between two ticks. -/
def tickGap (c : Config) : Duration := (Duration.ofSeconds 1).part (max c.tickRate 1).toNat

end Config

end FrameCache
