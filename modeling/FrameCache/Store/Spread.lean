import FrameCache.Resource
import FrameCache.Store

/-!
# Spreading keys over shards

`Spread` gives the keys of the caches a hash whose upper half depends on the whole key.
`Layout.ofCount` spreads keys by this hash over a given number of shards, which has to be
a power of two, and `Layout.standard` over sixteen of them.
-/

namespace FrameCache

/-- Stirs the word `x` into the hash `h`. -/
def stir (h x : UInt64) : UInt64 := (h ^^^ x) * 0x9E3779B97F4A7C15

/-- Keys with a hash. -/
class Spread (K : Type) where
  /-- The hash of a key. -/
  hash : K → UInt64

instance : Spread ObjectId := ⟨fun o => stir 1 o.raw⟩

instance : Spread String := ⟨fun s => s.toList.foldl (fun h c => stir h c.val.toUInt64) 1⟩

instance : Spread TextKey :=
  ⟨fun k => stir (stir (Spread.hash k.text) k.sizeBits.toUInt64) (Spread.hash k.source)⟩

instance : Spread IconKey :=
  ⟨fun k => stir (stir (Spread.hash k.name) k.width.toUInt64) k.height.toUInt64⟩

/-- Why a number of shards is refused. -/
inductive LayoutError where
  /-- The number is not a power of two. -/
  | notPowerOfTwo
deriving DecidableEq

/-- The wording of an error. -/
def LayoutError.message : LayoutError → String
  | .notPowerOfTwo => "num_shards must be a power of two"

namespace Layout

variable {K : Type} [Spread K]

/-- The layout with `n` shards, for a power of two. -/
def ofCount (n : Nat) : Except LayoutError (Layout K) :=
  if h : n = 1 <<< n.log2 then
    .ok ⟨n, h ▸ Nat.one_shiftLeft _ ▸ Nat.two_pow_pos _, Spread.hash⟩
  else
    .error .notPowerOfTwo

/-- The number of shards when none is asked for. -/
def standardCount : Nat := 16

/-- The layout with sixteen shards. -/
def standard : Layout K := ⟨standardCount, by decide, Spread.hash⟩

end Layout

end FrameCache
