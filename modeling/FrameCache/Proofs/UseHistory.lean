import FrameCache.Proofs.Uses
import Mathlib.Data.List.Induction

/-!
# The history of a cache

A `Found` use comes with the cache that it finds, and `Cache.history` lists the uses of a cache
so, the latest first.  The value and the deadline of a key are read off the history: the value is
the one stored last, unless it was taken away since, and the deadline is one lifetime after the
latest use that stored or renewed the entry.  Whether a lookup found its value alive is told by
the history up to it, since a value is alive just as long as its deadline has not passed.
-/

namespace FrameCache

variable {K V : Type}

/-- A use with the cache that it finds. -/
structure Found (K V : Type) where
  /-- The cache before the use. -/
  cache : Cache K V
  /-- The reading of the clock. -/
  now : Instant
  /-- The use. -/
  use : Use K V

variable [DecidableEq K]

namespace Found

/-- The value that the use stores for `k`. -/
def stored? (u : Found K V) (k : K) : Option V := u.cache.storedBy u.now u.use k

/-- The use takes the entry of `k` away. -/
def takes (u : Found K V) (k : K) : Bool := u.cache.takenBy u.use k

/-- The use stores a value for `k`, finds its value alive, or touches it. -/
def renews (u : Found K V) (k : K) : Bool :=
  (u.stored? k).isSome || u.cache.renewedBy u.now u.use k

/-- The value that was stored last for `k`, if no later use took it away.  The latest use is
listed first. -/
def latestValue (h : List (Found K V)) (k : K) : Option V :=
  (h.find? fun u => (u.stored? k).isSome || u.takes k).bind fun u => u.stored? k

/-- The reading of the clock at the latest use that renewed `k`. -/
def latestRenewal (h : List (Found K V)) (k : K) : Option Instant :=
  (h.find? fun u => u.renews k).map fun u => u.now

theorem latestValue_cons (u : Found K V) (h : List (Found K V)) (k : K) :
  latestValue (u :: h) k
    = if (u.stored? k).isSome || u.takes k then u.stored? k else latestValue h k
  := by
  rw [latestValue, List.find?_cons]
  split
  · rename_i hu
    rw [hu]
    rfl
  · rename_i hu
    rw [hu]
    rfl

theorem latestRenewal_cons (u : Found K V) (h : List (Found K V)) (k : K) :
  latestRenewal (u :: h) k = if u.renews k then some u.now else latestRenewal h k
  := by
  rw [latestRenewal, List.find?_cons]
  split
  · rename_i hu
    rw [hu]
    rfl
  · rename_i hu
    rw [hu]
    rfl

end Found

namespace Cache

/-- The uses with the caches that they find, the latest first. -/
def history (c : Cache K V) : List (Instant × Use K V) → List (Found K V)
  | [] => []
  | (now, u) :: us => (c.serve now u).2.history us ++ [⟨c, now, u⟩]

theorem serveAll_concat (c : Cache K V) (us : List (Instant × Use K V)) (now : Instant)
    (u : Use K V) :
  (c.serveAll (us ++ [(now, u)])).2 = ((c.serveAll us).2.serve now u).2
  := by
  induction us generalizing c with
  | nil => rfl
  | cons x us ih => apply ih

theorem history_concat (c : Cache K V) (us : List (Instant × Use K V)) (now : Instant)
    (u : Use K V) :
  c.history (us ++ [(now, u)]) = ⟨(c.serveAll us).2, now, u⟩ :: c.history us
  := by
  induction us generalizing c with
  | nil => rfl
  | cons x us ih =>
    change (c.serve x.1 x.2).2.history (us ++ [(now, u)]) ++ _ = _
    rw [ih]
    rfl

/-- The cache holds what its history tells. -/
structure Recounts (c : Cache K V) (h : List (Found K V)) : Prop where
  /-- The resident value is the latest one. -/
  resident : ∀ k, c.resident k = Found.latestValue h k
  /-- The deadline is one lifetime after the latest renewal. -/
  deadline : ∀ k e, c.store.find? k = some e →
    (Found.latestRenewal h k).map (·.after c.lifetime) = some e.deadline

/-- A use that is served becomes the latest one of the history. -/
theorem Recounts.serve {c : Cache K V} {h : List (Found K V)} (hc : c.Recounts h) (now : Instant)
    (u : Use K V) :
  (c.serve now u).2.Recounts (⟨c, now, u⟩ :: h)
  := by
  constructor
  · intro k
    have hbefore := hc.resident k
    rw [Cache.resident] at hbefore
    rw [Found.latestValue_cons, Cache.resident, find?_serve, entryAfter]
    change _ = if (c.storedBy now u k).isSome || c.takenBy u k then c.storedBy now u k else _
    cases c.storedBy now u k with
    | some v => rfl
    | none =>
      cases c.takenBy u k with
      | true => rfl
      | false =>
        cases c.renewedBy now u k with
        | true => simpa [Entry.postpone, Function.comp_def] using hbefore
        | false => simpa using hbefore
  · intro k e he
    rw [find?_serve, entryAfter] at he
    rw [Found.latestRenewal_cons, lifetime_serve]
    change ((if (c.storedBy now u k).isSome || c.renewedBy now u k then some now else _).map _) = _
    cases hs : c.storedBy now u k with
    | some v =>
      rw [hs] at he
      cases he
      rfl
    | none =>
      rw [hs] at he
      cases ht : c.takenBy u k with
      | true => simp [ht] at he
      | false =>
        cases hr : c.renewedBy now u k with
        | true =>
          simp only [ht, hr, Bool.false_eq_true, if_false, if_true] at he
          obtain ⟨e', -, rfl⟩ := Option.map_eq_some_iff.1 he
          rfl
        | false =>
          simp only [ht, hr, Bool.false_eq_true, if_false] at he
          apply hc.deadline k e he

theorem recounts_empty (layout : Layout K) (lifetime : Duration) :
  (empty layout lifetime : Cache K V).Recounts []
  := by
  have hnone : ∀ k, (empty layout lifetime : Cache K V).store.find? k = none :=
    Store.find?_empty layout
  constructor
  · intro k
    rw [resident, hnone]
    rfl
  · intro k e he
    rw [hnone] at he
    cases he

theorem recounts_serveAll (layout : Layout K) (lifetime : Duration)
    (us : List (Instant × Use K V)) :
  ((empty layout lifetime).serveAll us).2.Recounts ((empty layout lifetime).history us)
  := by
  induction us using List.reverseRecOn with
  | nil => apply recounts_empty
  | append_singleton us x ih =>
    rw [serveAll_concat, history_concat]
    apply ih.serve

/-- A value is handed out exactly as long as its deadline has not passed. -/
theorem peek_eq_some_iff_resident {c : Cache K V} {k : K} {now : Instant} {v : V} :
  c.peek k now = some v ↔ c.resident k = some v ∧ ∃ d ∈ c.deadlineOf k, now < d
  := by
  rw [peek_eq_some_iff, resident, deadlineOf]
  cases c.store.find? k with
  | none => simp
  | some e => simp [and_comm]

/-- Whatever uses a new cache has served, at whatever readings of the clock, the value of a key is
the latest one that was stored and not taken away since, and its deadline is one lifetime after
the latest use that stored it, found it alive or touched it.  It is handed out exactly as long as
the deadline has not passed. -/
theorem resident_serveAll (layout : Layout K) (lifetime : Duration)
    (us : List (Instant × Use K V)) (k : K) :
  let c := ((empty layout lifetime).serveAll us).2
  let h := (empty layout lifetime).history us
  c.resident k = Found.latestValue h k
    ∧ c.deadlineOf k = (c.resident k).bind (fun _ =>
      (Found.latestRenewal h k).map fun t => t.after lifetime)
    ∧ ∀ now, (c.get k now).1 = c.peek k now
      ∧ ∀ v, c.peek k now = some v ↔ c.resident k = some v ∧ ∃ d ∈ c.deadlineOf k, now < d
  := by
  intro c h
  have hc : c.Recounts h := recounts_serveAll layout lifetime us
  use hc.resident k
  constructor
  · have hdeadline := hc.deadline k
    rw [show c.lifetime = lifetime from lifetime_serveAll _ _] at hdeadline
    rw [deadlineOf, resident]
    cases he : c.store.find? k with
    | none => rfl
    | some e => apply (hdeadline e he).symm
  · intro now
    use c.fst_get k now
    intro v
    apply peek_eq_some_iff_resident

end Cache

end FrameCache
