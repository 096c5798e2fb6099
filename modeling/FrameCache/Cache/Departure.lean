/-!
# Departures

A `Departure` is an entry that left a cache, with the `Cause`.
-/

namespace FrameCache

/-- Why an entry left a cache. -/
inductive Cause where
  /-- Its deadline had passed. -/
  | expired
  /-- It was removed by its key. -/
  | explicit
  /-- Another value was stored for its key. -/
  | replaced
  /-- The cache was emptied. -/
  | cleared
deriving DecidableEq

/-- An entry that left a cache. -/
@[ext]
structure Departure (K V : Type) where
  /-- The key of the entry. -/
  key : K
  /-- The value of the entry. -/
  value : V
  /-- Why it left. -/
  cause : Cause
deriving DecidableEq

end FrameCache
