import FrameCache.Proofs.Departures
import FrameCache.Proofs.Visitors

/-!
# The ledger of a cache

An `Audited` cache is a cache with the departures reported so far and a ledger: the values
stored so far and the number of lookups.  `Program.audit` runs a program as `Program.run`
does and keeps the ledger.

At every moment the values stored are those resident, those whose departure is still to be
reported and those reported.  The last two change places while a listener is notified, also
when the listener answers with uses of the same cache.
-/

namespace FrameCache

variable {K V α : Type}

/-! ### Audited caches -/

/-- A cache with the departures reported and the ledger kept so far. -/
structure Audited (K V : Type) extends Heard K V where
  /-- The values stored, the latest first. -/
  stored : List (K × V)
  /-- The number of lookups. -/
  lookups : Nat

namespace Audited

/-- A cache without entries, nothing reported. -/
def start (layout : Layout K) (lifetime : Duration) : Audited K V :=
  ⟨⟨.empty layout lifetime, []⟩, [], 0⟩

/-- The report of a departure. -/
def report (h : Audited K V) (d : Departure K V) : Audited K V :=
  { h with reports := d :: h.reports }

variable [DecidableEq K]

/-- Carries out an operation at `now`: the reply, the departures, and the cache with its
ledger after it. -/
def perform (h : Audited K V) (now : Instant) (op : Op K V) :
    Reply K V × List (Departure K V) × Audited K V :=
  let (reply, departures, cache) := h.cache.perform now op
  (reply, departures,
    { h with
      cache
      stored := h.cache.stored now op ++ h.stored
      lookups := h.lookups + op.isLookup.toNat })

end Audited

variable [DecidableEq K]

/-- Runs a program as `Program.run` does, and keeps the ledger. -/
def Program.audit (notify : List (Departure K V) → Audited K V → Option (Audited K V)) :
    Program K V α → Audited K V → Option (α × Audited K V)
  | .done a, h => some (a, h)
  | .call now op next, h =>
    let (reply, departures, h) := h.perform now op
    (notify departures h).bind fun h => (next reply).audit notify h

/-- Reports departures as `Listener.notify` does, and keeps the ledger. -/
def Listener.audit (listener : Listener K V) :
    (depth : Nat) → List (Departure K V) → Audited K V → Option (Audited K V)
  | 0, departures, h => if departures.isEmpty then some h else none
  | depth + 1, departures, h =>
    departures.foldlM (fun h d =>
      ((listener (h.report d).reports).audit (Listener.audit listener depth)
        (h.report d)).map Prod.snd) h

/-- Forgetting the ledger of an audit leaves the run. -/
theorem Program.run_of_audit
    {notify : List (Departure K V) → Audited K V → Option (Audited K V)}
    {notify' : List (Departure K V) → Heard K V → Option (Heard K V)}
    (hn : ∀ ds h, (notify ds h).map Audited.toHeard = notify' ds h.toHeard)
    (p : Program K V α) (h : Audited K V) :
  (p.audit notify h).map (Prod.map id Audited.toHeard) = p.run notify' h.toHeard
  := by
  induction p generalizing h with
  | done a => rfl
  | call now op next ih =>
    rw [audit, run]
    change _ = (notify' (h.perform now op).2.1 (h.perform now op).2.2.toHeard).bind _
    rw [← hn, Option.map_bind, Option.bind_map]
    congr 1
    funext h'
    apply ih

/-- Forgetting the ledger of audited reports leaves the reports. -/
theorem Listener.notify_of_audit (listener : Listener K V) (depth : Nat)
    (ds : List (Departure K V)) (h : Audited K V) :
  (listener.audit depth ds h).map Audited.toHeard = listener.notify depth ds h.toHeard
  := by
  induction depth generalizing ds h with
  | zero =>
    rw [audit, notify]
    split
    · rfl
    · rfl
  | succ depth ih =>
    rw [audit, notify]
    induction ds generalizing h with
    | nil => rfl
    | cons d ds ihd =>
      have hp := Program.run_of_audit ih (listener (h.report d).reports) (h.report d)
      rw [List.foldlM_cons, List.foldlM_cons]
      change _ = ((Program.run (listener.notify depth) (listener (h.report d).reports)
        (h.report d).toHeard).map Prod.snd).bind _
      rw [← hp, Option.map_map, Option.bind_eq_bind, Option.map_bind, Option.bind_map,
        Option.bind_map]
      congr 1
      funext r
      apply ihd

/-! ### Balance -/

/-- The books balance when the departures `pending` are still to be reported. -/
structure Audited.Balanced (pending : List (Departure K V)) (h : Audited K V) : Prop where
  /-- What was stored is resident, waits to be reported, or was reported. -/
  entries : (h.cache.toList ++ (pending ++ h.reports).map Departure.entry).Perm h.stored
  /-- The totals count the departures, reported or not. -/
  tally : h.cache.counters.Tally (pending ++ h.reports)
  /-- The totals count the lookups. -/
  looked : h.cache.counters.hits + h.cache.counters.misses = .ofNat h.lookups

namespace Audited

omit [DecidableEq K] in
theorem balanced_start (layout : Layout K) (lifetime : Duration) :
  (start layout lifetime : Audited K V).Balanced []
  := by
  constructor
  · simp [start, Cache.empty, Cache.toList, Store.empty, Store.toList, Table.empty]
  · constructor
    · rfl
    · rfl
    · rfl
  · rfl

/-- The departures of an operation have to be reported before all others. -/
theorem Balanced.perform {pending : List (Departure K V)} {h : Audited K V}
    (hb : h.Balanced pending) (now : Instant) (op : Op K V) :
  (h.perform now op).2.2.Balanced ((h.perform now op).2.1 ++ pending)
  := by
  obtain ⟨looked, cause, hlooked, hcause, hcounters⟩ := h.cache.counters_perform now op
  obtain ⟨he, ht, hl⟩ := hb
  constructor
  · have hp := h.cache.toList_perform now op
    simp only [List.map_append, List.append_assoc] at he ⊢
    calc
      _ = ((h.perform now op).2.2.cache.toList ++ (h.perform now op).2.1.map Departure.entry)
          ++ (pending.map Departure.entry ++ h.reports.map Departure.entry) := by
        rw [List.append_assoc]
        rfl
      List.Perm _ ((h.cache.stored now op ++ h.cache.toList)
          ++ (pending.map Departure.entry ++ h.reports.map Departure.entry)) := hp.append_right _
      List.Perm _ (h.cache.stored now op ++ h.stored) := by
        rw [List.append_assoc]
        apply he.append_left
  · change Counters.Tally (h.cache.perform now op).2.2.counters _
    rw [hcounters, List.append_assoc]
    apply Counters.Tally.departed _ hcause
    split at hlooked
    · apply ht.lookup hlooked
    · rw [hlooked]
      apply ht
  · change (h.cache.perform now op).2.2.counters.hits + (h.cache.perform now op).2.2.counters.misses
      = .ofNat (h.lookups + op.isLookup.toNat)
    rw [hcounters, Counters.hits_departed, Counters.misses_departed, UInt64.ofNat_add, ← hl]
    split at hlooked
    · rename_i hop
      rw [hop]
      apply Counters.hits_add_misses_of_lookup hlooked
    · rename_i hop
      rw [hlooked, eq_false_of_ne_true hop]
      apply (UInt64.add_zero _).symm

omit [DecidableEq K] in
/-- A report takes a departure from those that wait. -/
theorem Balanced.report {pending : List (Departure K V)} {h : Audited K V} {d : Departure K V}
    (hb : h.Balanced (d :: pending)) :
  (h.report d).Balanced pending
  := by
  have hm : (pending ++ d :: h.reports).Perm (d :: pending ++ h.reports) := List.perm_middle
  obtain ⟨he, ⟨hx, hr, hp⟩, hl⟩ := hb
  constructor
  · apply List.Perm.trans _ he
    apply List.Perm.append_left
    apply hm.map
  · constructor
    · apply hx.trans
      apply congrArg UInt64.ofNat
      apply (hm.countP_eq _).symm
    · apply hr.trans
      apply congrArg UInt64.ofNat
      apply (hm.countP_eq _).symm
    · apply hp.trans
      apply congrArg UInt64.ofNat
      apply (hm.countP_eq _).symm
  · apply hl

end Audited

/-- A program keeps the balance if the departures of its operations are reported. -/
theorem Program.balanced_audit
    {notify : List (Departure K V) → Audited K V → Option (Audited K V)}
    {pending : List (Departure K V)}
    (hn : ∀ ds h h', h.Balanced (ds ++ pending) → notify ds h = some h' → h'.Balanced pending)
    (p : Program K V α) {h h' : Audited K V} {a : α} (hb : h.Balanced pending)
    (hp : p.audit notify h = some (a, h')) :
  h'.Balanced pending
  := by
  induction p generalizing h with
  | done a =>
    obtain ⟨-, rfl⟩ := Prod.mk.inj (Option.some.inj hp)
    apply hb
  | call now op next ih =>
    obtain ⟨h₁, h₁', hnext⟩ := Option.bind_eq_some_iff.1 hp
    apply ih _ _ hnext
    apply hn _ _ _ (hb.perform now op) h₁'

/-- Reporting departures keeps the balance, whatever the listener answers. -/
theorem Listener.balanced_audit (listener : Listener K V) (depth : Nat)
    (ds pending : List (Departure K V)) {h h' : Audited K V} (hb : h.Balanced (ds ++ pending))
    (hr : listener.audit depth ds h = some h') :
  h'.Balanced pending
  := by
  induction depth generalizing ds pending h h' with
  | zero =>
    rw [audit] at hr
    split at hr
    · rename_i hds
      rw [List.isEmpty_iff.1 hds] at hb
      cases hr
      apply hb
    · cases hr
  | succ depth ih =>
    rw [audit] at hr
    -- The rest of the list waits while the answer to its first departure runs.
    induction ds generalizing h with
    | nil =>
      cases hr
      apply hb
    | cons d ds ihd =>
      rw [List.foldlM_cons] at hr
      obtain ⟨h₁, hd, hds⟩ := Option.bind_eq_some_iff.1 hr
      obtain ⟨⟨_, _⟩, hp, rfl⟩ := Option.map_eq_some_iff.1 hd
      apply ihd _ hds
      apply Program.balanced_audit _ _ hb.report hp
      intro ds' h₂ h₂' hb' hr'
      apply ih _ _ hb' hr'

/-- Once a client of a new cache has come to its end, every value stored is resident or was
reported, and not both, each key has one resident value, and the totals of the cache are the
numbers of reports by cause and of lookups.  The client may visit all entries with a program
for each, as in `Program.visitAll`. -/
theorem Program.exists_ledger_of_runWith (p : Program K V α) (listener : Listener K V)
    (depth : Nat) (layout : Layout K) (lifetime : Duration) {a : α} {end' : Heard K V}
    (hp : p.runWith listener depth ⟨.empty layout lifetime, []⟩ = some (a, end')) :
  ∃ h : Audited K V,
    p.audit (listener.audit depth) (.start layout lifetime) = some (a, h)
    ∧ h.toHeard = end'
    ∧ h.stored.Perm (end'.cache.toList ++ end'.reports.map Departure.entry)
    ∧ (end'.cache.toList.map Prod.fst).Nodup
    ∧ (∀ k v, (k, v) ∈ end'.cache.toList ↔ end'.cache.resident k = some v)
    ∧ end'.cache.counters.Tally end'.reports
    ∧ h.stored.length = end'.cache.size + end'.reports.length
    ∧ end'.cache.counters.hits + end'.cache.counters.misses = .ofNat h.lookups
  := by
  have he := p.run_of_audit (listener.notify_of_audit depth) (.start layout lifetime)
  rw [runWith] at hp
  change _ = p.run _ ⟨.empty layout lifetime, []⟩ at he
  rw [hp] at he
  obtain ⟨⟨a', h⟩, ha, heq⟩ := Option.map_eq_some_iff.1 he
  obtain ⟨rfl, rfl⟩ := Prod.mk.inj heq
  have hb : h.Balanced [] := by
    apply balanced_audit _ p (Audited.balanced_start layout lifetime) ha
    intro ds h₁ h₁' hb hr
    apply listener.balanced_audit depth ds [] hb hr
  obtain ⟨hentries, htally, hlooked⟩ := hb
  have hstored : h.stored.Perm (h.cache.toList ++ h.reports.map Departure.entry) :=
    hentries.symm
  use h, ha, rfl, hstored, h.cache.nodup_keys
  constructor
  · intro k v
    apply Cache.mem_toList
  use htally
  constructor
  · rw [hstored.length_eq, List.length_append, List.length_map, Cache.size_eq_length_toList]
  · apply hlooked

/-- Even numbers in one shard, odd numbers in the other. -/
def Layout.parity : Layout Nat := ⟨2, by decide, fun n => UInt64.ofNat n <<< 32⟩

/-- Stores every value that departs again, a hundred higher, unless it was replaced. -/
def Listener.storeAgain : Listener Nat Nat
  | ⟨k, v, cause⟩ :: _ =>
    if cause = .replaced then .done ()
    else .call .epoch (.insert k (v + 100)) fun _ => .done ()
  | [] => .done ()

/-- Stores two values, looks for a third, replaces one and removes all that is visited. -/
def Program.churn : Program Nat Nat Unit :=
  .call .epoch (.insert 1 10) fun _ =>
  .call .epoch (.upsert 2 (some 20)) fun _ =>
  .call .epoch (.get 3) fun _ =>
  .call .epoch (.insert 1 11) fun _ =>
  .visitAll .parity .epoch (fun k _ s => .call .epoch (.remove k) fun _ => .done (true, s)) ()

theorem Program.exists_ledger_of_churn :
  ∃ h : Audited Nat Nat,
    churn.audit (Listener.storeAgain.audit 2) (.start .parity ⟨5⟩) = some ((), h)
    ∧ h.stored.Perm (h.cache.toList ++ h.reports.map Departure.entry)
    ∧ h.stored = [(1, 111), (2, 120), (1, 11), (2, 20), (1, 10)]
  := by
  obtain ⟨h, ha, he, hs, -⟩ := churn.exists_ledger_of_runWith .storeAgain 2 .parity ⟨5⟩ rfl
  rw [← he] at hs
  use h, ha, hs
  cases ha
  rfl

end FrameCache
