import FrameCache.SweepSchedule
import Mathlib.Data.List.Induction

/-!
# The history of a sweep schedule

A `SweepSchedule.Tick` is what a schedule decides about, and its `History` lists the ticks
with the decisions made for them, the latest first.  `History.expected` tells from the history
alone what is to be decided for the next tick, without any of the state that a schedule keeps.

The state of a schedule recounts its history, so a schedule always decides what is expected:
the time of the last sweep, the flag and the deferred canvases never get out of step.
-/

namespace FrameCache

namespace SweepSchedule

/-- What a schedule decides about. -/
structure Tick where
  /-- The instant of the tick. -/
  now : Instant
  /-- Something was repainted. -/
  repainted : Bool
  /-- The canvases that were repainted. -/
  refreshed : List CanvasId
deriving DecidableEq

/-- A tick with the decision made for it. -/
structure Decided extends Tick where
  /-- The decision. -/
  decision : SweepDecision
deriving DecidableEq

/-- The decision for a tick, and the schedule after it. -/
def tick (s : SweepSchedule) (t : Tick) : SweepDecision × SweepSchedule :=
  s.decideAt t.now t.repainted t.refreshed

/-- The schedule after some ticks. -/
def afterAll (s : SweepSchedule) (ts : List Tick) : SweepSchedule :=
  ts.foldl (fun s t => (s.tick t).2) s

/-- Ticks with the decisions made for them, the latest first. -/
abbrev History := List Decided

/-- The history that a schedule makes of some ticks. -/
def history (s : SweepSchedule) : List Tick → History
  | [] => []
  | t :: ts => (s.tick t).2.history ts ++ [⟨t, (s.tick t).1⟩]

/-! ### What a history tells -/

/-- The caches were swept at a tick. -/
def Decided.swept (d : Decided) : Bool := d.decision.depth ≠ .skipped

namespace History

/-- The instant of the latest sweep. -/
def lastSweep? (h : History) : Option Instant := (h.find? Decided.swept).map fun d => d.now

/-- Less than `d` has passed at `now` since the latest sweep, if there was any. -/
def sweptWithin (h : History) (d : Duration) (now : Instant) : Bool :=
  h.lastSweep?.any fun last => now.since last < d

/-- The ticks since the latest sweep, the latest first. -/
def sinceSweep (h : History) : History := h.takeWhile fun d => !d.swept

/-- The ticks with repaints since the latest sweep, the latest first. -/
def waiting (h : History) : History := h.sinceSweep.filter fun d => d.repainted

/-- The canvases repainted since the latest sweep, in the order of the repaints. -/
def waitingCanvases (h : History) : List CanvasId := h.waiting.reverse.flatMap fun d => d.refreshed

/-- How deep the sweep at the tick `t` is to go after the history `h`. -/
def expectedDepth (gap idleGap : Duration) (h : History) (t : Tick) : SweepDepth :=
  if h.sweptWithin gap t.now then .skipped
  else if t.repainted ∨ ∃ d ∈ h.sinceSweep, d.repainted then .full
  else if h.sweptWithin idleGap t.now then .skipped
  else .light

/-- What is to be decided for the tick `t` after the history `h`.  A full sweep lists the
canvases that wait and those of the tick, each where it occurs first. -/
def expected (gap idleGap : Duration) (h : History) (t : Tick) : SweepDecision where
  depth := h.expectedDepth gap idleGap t
  canvases := match h.expectedDepth gap idleGap t with
    | .full => (h.waitingCanvases ++ t.refreshed).eraseDups
    | .light | .skipped => []

end History

/-! ### What is expected -/

namespace History

variable {gap idleGap : Duration} {h : History} {t : Tick}

/-- A sweep is expected only when the gap has passed. -/
theorem le_since_of_expected (hd : (h.expected gap idleGap t).depth ≠ .skipped) {last : Instant}
    (hlast : last ∈ h.lastSweep?) :
  gap ≤ t.now.since last
  := by
  apply Nat.le_of_not_lt
  intro hlt
  apply hd
  apply if_pos
  rw [sweptWithin, Option.any_eq_true]
  use last, hlast
  apply decide_eq_true hlt

/-- A sweep at a tick with repaints is full and lists what was repainted. -/
theorem expected_of_repainted (hd : (h.expected gap idleGap t).depth ≠ .skipped)
    (hr : t.repainted = true) :
  (h.expected gap idleGap t).depth = .full
    ∧ ∀ c ∈ t.refreshed, c ∈ (h.expected gap idleGap t).canvases
  := by
  have hdepth : h.expectedDepth gap idleGap t = .full := by
    have hgap : ¬ h.sweptWithin gap t.now = true := fun hgap => hd (if_pos hgap)
    rw [expectedDepth, if_neg hgap, if_pos (.inl hr)]
  use hdepth
  intro c hc
  rw [expected, hdepth]
  apply List.mem_eraseDups.2
  apply List.mem_append_right _ hc

/-- A sweep lists only canvases that were listed at its tick or since the latest sweep. -/
theorem mem_canvases_expected {c : CanvasId} (hc : c ∈ (h.expected gap idleGap t).canvases) :
  c ∈ t.refreshed ∨ ∃ d ∈ h.sinceSweep, c ∈ d.refreshed
  := by
  rw [expected] at hc
  dsimp only at hc
  split at hc
  · rcases List.mem_append.1 (List.mem_eraseDups.1 hc) with hc | hc
    · obtain ⟨d, hd, hc⟩ := List.mem_flatMap.1 hc
      have hwaiting := List.mem_filter.1 (List.mem_reverse.1 hd)
      apply Or.inr
      use d, hwaiting.1
    · apply Or.inl hc
  · cases hc
  · cases hc

/-- After a tick with repaints waits, the next sweep is full and lists what was repainted. -/
theorem expected_of_waiting (hd : (h.expected gap idleGap t).depth ≠ .skipped) {d : Decided}
    (hmem : d ∈ h.sinceSweep) (hr : d.repainted = true) :
  (h.expected gap idleGap t).depth = .full
    ∧ ∀ c ∈ d.refreshed, c ∈ (h.expected gap idleGap t).canvases
  := by
  have hdepth : h.expectedDepth gap idleGap t = .full := by
    have hgap : ¬ h.sweptWithin gap t.now = true := fun hgap => hd (if_pos hgap)
    rw [expectedDepth, if_neg hgap, if_pos (.inr ⟨d, hmem, hr⟩)]
  use hdepth
  intro c hc
  have hcanvases : c ∈ h.waitingCanvases := by
    apply List.mem_flatMap.2
    use d, List.mem_reverse.2 (List.mem_filter.2 ⟨hmem, hr⟩), hc
  rw [expected, hdepth]
  apply List.mem_eraseDups.2
  apply List.mem_append_left _ hcanvases

end History

/-! ### Canvases without repetition -/

/-- Adding canvases to the end, each only once, keeps first occurrences. -/
theorem addNew_eraseDups (old new : List CanvasId) :
  addNew old.eraseDups new = (old ++ new).eraseDups
  := by
  induction new using List.reverseRecOn with
  | nil => rw [List.append_nil, addNew, List.foldl_nil]
  | append_singleton new c ih =>
    rw [addNew, List.foldl_append, List.foldl_cons, List.foldl_nil]
    change (if c ∈ addNew old.eraseDups new then addNew old.eraseDups new
      else addNew old.eraseDups new ++ [c]) = _
    rw [ih, ← List.append_assoc, @List.eraseDups_append _ _ _ (old ++ new)]
    by_cases hc : c ∈ old ++ new
    · rw [if_pos (List.mem_eraseDups.2 hc)]
      rw [List.cons_removeAll, List.contains_iff_mem.2 hc]
      simp
    · rw [if_neg (mt List.mem_eraseDups.1 hc)]
      rw [List.cons_removeAll, eq_false_of_ne_true (mt List.contains_iff_mem.1 hc)]
      simp [List.eraseDups_cons]

/-! ### Histories with one more tick -/

namespace History

variable {h : History} {d : Decided}

theorem waiting_ne_nil_iff :
  h.waiting ≠ [] ↔ ∃ d ∈ h.sinceSweep, d.repainted = true
  := by
  rw [Ne, waiting, List.filter_eq_nil_iff]
  simp

/-- Ticks without a sweep are since the latest sweep. -/
theorem sinceSweep_append {h' : History} (hskipped : ∀ d ∈ h', d.swept = false) :
  sinceSweep (h' ++ h) = h' ++ h.sinceSweep
  := by
  apply List.takeWhile_append_of_pos
  intro d hd
  rw [hskipped d hd]
  rfl

theorem lastSweep?_cons_of_swept (hd : d.swept = true) :
  lastSweep? (d :: h) = some d.now
  := by
  rw [lastSweep?, List.find?_cons_of_pos hd]
  rfl

theorem lastSweep?_cons_of_not_swept (hd : d.swept = false) :
  lastSweep? (d :: h) = h.lastSweep?
  := by
  rw [lastSweep?, List.find?_cons_of_neg (by simp [hd])]
  rfl

/-- After a sweep nothing waits. -/
theorem waiting_cons_of_swept (hd : d.swept = true) :
  waiting (d :: h) = []
  := by
  rw [waiting, sinceSweep, List.takeWhile_cons_of_neg (by simp [hd])]
  rfl

/-- A tick without a sweep waits if something was repainted. -/
theorem waiting_cons_of_not_swept (hd : d.swept = false) :
  waiting (d :: h) = if d.repainted then d :: h.waiting else h.waiting
  := by
  rw [waiting, sinceSweep, List.takeWhile_cons_of_pos (by simp [hd]), List.filter_cons]
  rfl

end History

/-! ### Schedules recount their history -/

/-- The state of a schedule is what its history tells. -/
structure Recounts (s : SweepSchedule) (h : History) : Prop where
  /-- The last sweep is the latest one of the history. -/
  lastSweep : s.lastSweep = h.lastSweep?
  /-- A sweep is pending when a tick with repaints waits. -/
  pending : s.pending = true ↔ h.waiting ≠ []
  /-- The deferred canvases are those that wait. -/
  deferred : s.deferred = h.waitingCanvases.eraseDups

theorem afterAll_concat (s : SweepSchedule) (ts : List Tick) (t : Tick) :
  s.afterAll (ts ++ [t]) = ((s.afterAll ts).tick t).2
  := by
  rw [afterAll, List.foldl_append]
  rfl

theorem history_concat (s : SweepSchedule) (ts : List Tick) (t : Tick) :
  s.history (ts ++ [t]) = ⟨t, ((s.afterAll ts).tick t).1⟩ :: s.history ts
  := by
  induction ts generalizing s with
  | nil => rfl
  | cons t' ts ih =>
    change (s.tick t').2.history (ts ++ [t]) ++ _ = _
    rw [ih]
    rfl

namespace Recounts

variable {s : SweepSchedule} {h : History} {d : Decided}

theorem sweptWithin (hs : s.Recounts h) (length : Duration) (now : Instant) :
  s.sweptWithin length now = h.sweptWithin length now
  := by
  rw [SweepSchedule.sweptWithin, hs.lastSweep, History.sweptWithin]

/-- With a sweep nothing is left to be deferred. -/
theorem cons_of_swept (s : SweepSchedule) (h : History) (hd : d.swept = true) :
  Recounts { s with lastSweep := some d.now, pending := false, deferred := [] } (d :: h)
  := by
  constructor
  · rw [History.lastSweep?_cons_of_swept hd]
  · rw [History.waiting_cons_of_swept hd]
    simp
  · rw [History.waitingCanvases, History.waiting_cons_of_swept hd]
    rfl

/-- A tick with neither a repaint nor a sweep changes nothing. -/
theorem cons_of_quiet (hs : s.Recounts h) (hd : d.swept = false) (hr : d.repainted = false) :
  s.Recounts (d :: h)
  := by
  have hwaiting : History.waiting (d :: h) = h.waiting := by
    rw [History.waiting_cons_of_not_swept hd, hr]
    rfl
  constructor
  · rw [History.lastSweep?_cons_of_not_swept hd, hs.lastSweep]
  · rw [hwaiting, hs.pending]
  · rw [History.waitingCanvases, hwaiting, hs.deferred, History.waitingCanvases]

/-- A repaint that comes too early to sweep is remembered with its canvases. -/
theorem cons_of_repainted (hs : s.Recounts h) (hd : d.swept = false) (hr : d.repainted = true) :
  Recounts { s with pending := true, deferred := addNew s.deferred d.refreshed } (d :: h)
  := by
  have hwaiting : History.waiting (d :: h) = d :: h.waiting := by
    rw [History.waiting_cons_of_not_swept hd, if_pos hr]
  constructor
  · rw [History.lastSweep?_cons_of_not_swept hd, ← hs.lastSweep]
  · rw [hwaiting]
    simp
  · rw [hs.deferred, addNew_eraseDups, History.waitingCanvases, History.waitingCanvases, hwaiting,
      List.reverse_cons, List.flatMap_append, List.flatMap_singleton]

/-- A schedule that recounts its history decides what is expected, and goes on recounting. -/
theorem tick (hs : s.Recounts h) (t : Tick) :
  (s.tick t).1 = h.expected s.gap s.idleGap t ∧ (s.tick t).2.Recounts (⟨t, (s.tick t).1⟩ :: h)
  := by
  have hforced : (t.repainted || s.pending) = true
      ↔ t.repainted = true ∨ ∃ d ∈ h.sinceSweep, d.repainted = true := by
    rw [Bool.or_eq_true, hs.pending, History.waiting_ne_nil_iff]
  rw [SweepSchedule.tick, decideAt, hs.sweptWithin, hs.sweptWithin, History.expected,
    History.expectedDepth]
  by_cases hgap : h.sweptWithin s.gap t.now = true
  · rw [if_pos hgap, if_pos hgap]
    use rfl
    cases hr : t.repainted with
    | true => apply hs.cons_of_repainted (d := ⟨t, .skipped⟩) rfl hr
    | false => apply hs.cons_of_quiet (d := ⟨t, .skipped⟩) rfl hr
  rw [if_neg hgap, if_neg hgap]
  by_cases hfull : (t.repainted || s.pending) = true
  · rw [if_pos hfull, if_pos (hforced.1 hfull), hs.deferred, addNew_eraseDups]
    use rfl
    apply cons_of_swept s h (d := ⟨t, ⟨.full, (h.waitingCanvases ++ t.refreshed).eraseDups⟩⟩) rfl
  rw [if_neg hfull, if_neg (mt hforced.2 hfull)]
  have hr : t.repainted = false := by
    cases ht : t.repainted with
    | true => simp [ht] at hfull
    | false => rfl
  have hp : s.pending = false := by
    cases hp : s.pending with
    | true => simp [hp] at hfull
    | false => rfl
  by_cases hidle : h.sweptWithin s.idleGap t.now = true
  · rw [if_pos hidle, if_pos hidle]
    use rfl
    apply hs.cons_of_quiet (d := ⟨t, .skipped⟩) rfl hr
  · rw [if_neg hidle, if_neg hidle]
    use rfl
    have hswept := cons_of_swept s h (d := ⟨t, ⟨.light, []⟩⟩) rfl
    rw [← hp] at hswept
    apply hswept

end Recounts

theorem gaps_tick (s : SweepSchedule) (t : Tick) :
  (s.tick t).2.gap = s.gap ∧ (s.tick t).2.idleGap = s.idleGap
  := by
  rw [tick, decideAt]
  split
  · split
    · exact ⟨rfl, rfl⟩
    · exact ⟨rfl, rfl⟩
  · split
    · exact ⟨rfl, rfl⟩
    · split
      · exact ⟨rfl, rfl⟩
      · exact ⟨rfl, rfl⟩

theorem gaps_afterAll (s : SweepSchedule) (ts : List Tick) :
  (s.afterAll ts).gap = s.gap ∧ (s.afterAll ts).idleGap = s.idleGap
  := by
  apply List.foldlRecOn
    (motive := fun s' : SweepSchedule => s'.gap = s.gap ∧ s'.idleGap = s.idleGap) ts _ ⟨rfl, rfl⟩
  rintro s' ⟨hgap, hidle⟩ t _
  rw [(s'.gaps_tick t).1, (s'.gaps_tick t).2]
  use hgap, hidle

theorem recounts_ofConfig (c : Config) :
  (ofConfig c).Recounts []
  := by
  constructor
  · rfl
  · simp [ofConfig, History.waiting, History.sinceSweep]
  · rfl

theorem recounts_afterAll (c : Config) (ts : List Tick) :
  ((ofConfig c).afterAll ts).Recounts ((ofConfig c).history ts)
  := by
  induction ts using List.reverseRecOn with
  | nil => apply recounts_ofConfig
  | append_singleton ts t ih =>
    rw [afterAll_concat, history_concat]
    apply (ih.tick t).2

/-- For every tick a schedule decides what its history calls for, and its state tells when the
caches were last swept and whether a tick with repaints has been skipped since.  So two sweeps
are never closer than the gap, and the next sweep lists all canvases that were repainted since
the one before. -/
theorem tick_eq_expected (c : Config) (ts : List Tick) (t : Tick) :
  let s := (ofConfig c).afterAll ts
  let h := (ofConfig c).history ts
  let decision := (s.tick t).1
  decision = h.expected c.sweepGap c.idleGap t
    ∧ s.lastSweep = h.lastSweep?
    ∧ (s.pending = true ↔ ∃ d ∈ h.sinceSweep, d.repainted = true)
    ∧ (decision.depth ≠ .skipped → ∀ last ∈ h.lastSweep?, c.sweepGap ≤ t.now.since last)
    ∧ (decision.depth ≠ .skipped → ∀ d ∈ h.sinceSweep, d.repainted = true →
      decision.depth = .full ∧ ∀ canvas ∈ d.refreshed, canvas ∈ decision.canvases)
  := by
  intro s h decision
  have hs : s.Recounts h := recounts_afterAll c ts
  have hdecision : decision = h.expected c.sweepGap c.idleGap t := by
    have hgaps := (ofConfig c).gaps_afterAll ts
    rw [show decision = h.expected s.gap s.idleGap t from (hs.tick t).1, hgaps.1, hgaps.2]
    rfl
  use hdecision, hs.lastSweep
  rw [hs.pending, History.waiting_ne_nil_iff, hdecision]
  use Iff.rfl
  constructor
  · intro hd last hlast
    apply History.le_since_of_expected hd hlast
  · intro hd d hmem hr
    apply History.expected_of_waiting hd hmem hr

/-- The canvases of a tick that repainted nothing do not wait. -/
example :
  ((ofConfig .standard).history
      [⟨.ofNanos 0, true, [⟨1⟩]⟩, ⟨.ofNanos 5, true, [⟨3⟩, ⟨2⟩, ⟨3⟩]⟩,
        ⟨.ofNanos 6, false, [⟨4⟩]⟩]).expected Config.standard.sweepGap Config.standard.idleGap
      ⟨.ofNanos 10000000000, false, [⟨2⟩, ⟨5⟩]⟩
    = ⟨.full, [⟨3⟩, ⟨2⟩, ⟨5⟩]⟩
  := by decide +kernel

end SweepSchedule

end FrameCache
