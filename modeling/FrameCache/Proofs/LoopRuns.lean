import FrameCache.Proofs.LoopSteps

/-!
# The closures of a run

The closures that are queued, run and told leave an account: nothing is ever run that was not
queued, in another order or twice, and nothing is told that was not run.

`TaskStep` is what a step does to the queue.  It keeps the account (`Tally`), and a state of the
queue that fits the place that the frame thread is at (`Fits`, `Framed`).
-/

namespace FrameCache.FrameLoop

/-! ### Incidents -/

namespace Incident

/-- The closures queued, the earliest first. -/
def queuedIn (es : List Incident) : List Ticket :=
  es.filterMap fun
    | .queued k => some k
    | _ => none

/-- The queued closures that were run, the earliest first. -/
def ranIn (es : List Incident) : List (Ticket × Option Int) :=
  es.filterMap fun
    | .ran k answer => some (k, answer)
    | _ => none

/-- The outcomes that a thread was told, the earliest first. -/
def toldIn (t : ThreadId) (es : List Incident) : List Outcome :=
  es.filterMap fun
    | .told t' o => if t' = t then some o else none
    | _ => none

/-- The outcomes of the closures that were run for a thread. -/
def outcomesIn (t : ThreadId) (es : List Incident) : List Outcome :=
  (ranIn es).filterMap fun d => if d.1.caller = t then some (Outcome.ofAnswer d.2) else none

theorem queuedIn_append (es es' : List Incident) :
  queuedIn (es ++ es') = queuedIn es ++ queuedIn es'
  := List.filterMap_append

theorem ranIn_append (es es' : List Incident) :
  ranIn (es ++ es') = ranIn es ++ ranIn es'
  := List.filterMap_append

theorem toldIn_append (t : ThreadId) (es es' : List Incident) :
  toldIn t (es ++ es') = toldIn t es ++ toldIn t es'
  := List.filterMap_append

theorem mem_ranIn {es : List Incident} {k : Ticket} {answer : Option Int} :
  (k, answer) ∈ ranIn es ↔ .ran k answer ∈ es
  := by
  rw [ranIn, List.mem_filterMap]
  constructor
  · rintro ⟨e, he, heq⟩
    cases e with
    | ran =>
      obtain ⟨rfl, rfl⟩ := Prod.mk.inj (Option.some.inj heq)
      exact he
    | _ => exact nomatch heq
  · exact fun h => ⟨_, h, rfl⟩

theorem outcomesIn_append (t : ThreadId) (es es' : List Incident) :
  outcomesIn t (es ++ es') = outcomesIn t es ++ outcomesIn t es'
  := by
  rw [outcomesIn, ranIn_append, List.filterMap_append]
  rfl

end Incident

/-- The outcomes that wait for a thread, the oldest first. -/
def untold (t : ThreadId) (outcomes : List (ThreadId × Outcome)) : List Outcome :=
  outcomes.filterMap fun d => if d.1 = t then some d.2 else none

theorem untold_append (t : ThreadId) (os os' : List (ThreadId × Outcome)) :
  untold t (os ++ os') = untold t os ++ untold t os'
  := List.filterMap_append

theorem untold_singleton (t t' : ThreadId) (o : Outcome) :
  untold t [(t', o)] = if t' = t then [o] else []
  := by
  by_cases h : t' = t
  · simp [untold, h]
  · simp [untold, h]

theorem untold_cons (t : ThreadId) (d : ThreadId × Outcome) (os : List (ThreadId × Outcome)) :
  untold t (d :: os) = (if d.1 = t then [d.2] else []) ++ untold t os
  := by
  rw [← untold_singleton, ← untold_append]
  rfl

/-- A thread that is told an outcome is told the oldest that waits for it, and nothing changes for
the other threads. -/
theorem untold_takeOutcome {t : ThreadId} {o : Outcome} {os rest : List (ThreadId × Outcome)}
    (h : takeOutcome t os = some (o, rest)) (t' : ThreadId) :
  untold t' os = (if t = t' then [o] else []) ++ untold t' rest
  := by
  induction os generalizing rest with
  | nil => exact nomatch h
  | cons d os ih =>
    rw [takeOutcome] at h
    rw [untold_cons]
    split at h
    · rename_i hd
      obtain ⟨rfl, rfl⟩ := Prod.mk.inj (Option.some.inj h)
      rw [hd]
    · rename_i hd
      obtain ⟨⟨o', rest'⟩, htake, heq⟩ := Option.map_eq_some_iff.1 h
      obtain ⟨rfl, rfl⟩ := Prod.mk.inj heq
      rw [ih htake, untold_cons]
      by_cases ht : t = t'
      · rw [if_neg (ht ▸ hd)]
        rfl
      · rw [if_neg ht]
        rfl

/-- A thread can be told an outcome if one waits for it. -/
theorem exists_takeOutcome {t : ThreadId} {os : List (ThreadId × Outcome)}
    (h : untold t os ≠ []) :
  ∃ o rest, takeOutcome t os = some (o, rest)
  := by
  induction os with
  | nil => exact absurd rfl h
  | cons d os ih =>
    rw [takeOutcome]
    split
    · exact ⟨d.2, os, rfl⟩
    · rename_i hd
      rw [untold_cons, if_neg hd] at h
      obtain ⟨o, rest, htake⟩ := ih h
      exact ⟨o, d :: rest, by rw [htake]; rfl⟩

open Incident

/-! ### Steps and the queue -/

/-- What a step does to the queue of closures. -/
inductive TaskStep : Place → TaskQueue → List Incident → Place → TaskQueue → Prop where
  /-- The frame thread stays where it is. -/
  | stays {p q q'} (h : q' = q) :
    TaskStep p q [] p q'
  /-- The frame thread goes on in the run. -/
  | goesOn {p p' q q'} (h : q' = q) (hp : p.underway) (hp' : p'.underway)
    (hreleased : p'.released = p.released) :
    TaskStep p q [] p' q'
  /-- The platform hands in a closure, which runs at once. -/
  | runsAtOnce {p q q'} (h : q' = q) (hp : p.callsPlatform) (job : Job) (answer : Option Int) :
    TaskStep p q [.ranAtOnce job answer] (if answer.isSome then p else .failed) q'
  /-- A closure is queued, from another thread than the claimed one. -/
  | queues {p q k} (hk : ¬ q.owner.all (· = k.caller)) :
    TaskStep p q [.queued k] p { q with queue := q.queue ++ [k] }
  /-- The oldest closure is run. -/
  | runs {p p' q phase k queue} (hp : p.next? phase = some p') (hq : q.queue = k :: queue)
    (answer : Option Int) :
    TaskStep p q [.ran k answer] (if answer.isSome then p' else .failed)
      { q with queue, outcomes := q.outcomes ++ [(k.caller, .ofAnswer answer)] }
  /-- A thread is told the oldest outcome that waits for it. -/
  | tells {p q t o outcomes} (ho : takeOutcome t q.outcomes = some (o, outcomes)) :
    TaskStep p q [.told t o] p { q with outcomes }
  /-- The claim is released. -/
  | releases {q} :
    TaskStep .waiting q [] .leaving { q with owner := none }
  /-- Nothing more is queued. -/
  | leaves {q} (h : q.queue = []) :
    TaskStep .leaving q [] .left q
  /-- The platform learns that the run is over. -/
  | stops {q} :
    TaskStep .left q [.stopped] .ended q

variable {p p' : Place} {l l' : FrameLoop} {q₀ q q' : TaskQueue} {es es' : List Incident}
  {t : ThreadId} {k : Ticket}

theorem tasks_submit {job : Job} {answer : Option Int}
    (h : l.submit t job = (.ran answer, l')) :
  l'.tasks = l.tasks
  := by
  rw [submit_eq] at h
  split at h
  · rw [← (Prod.mk.inj h).2]
    rfl
  · exact nomatch h

theorem submit_queued {job : Job} (h : l.submit t job = (.queued, l')) :
  ¬ l.runsInline t ∧ l' = { l with queue := l.queue ++ [⟨t, job⟩] }
  := by
  rw [submit_eq] at h
  split at h
  · exact nomatch h
  · rename_i ht
    exact ⟨ht, (Prod.mk.inj h).2.symm⟩

/-- Each step of a run does one of these to the queue. -/
theorem Step.taskStep (ht : l.runsInline l.thread) (h : Step p l es p' l') :
  TaskStep p l.tasks es p' l'.tasks
  := by
  cases h with
  | queues t job h =>
    obtain ⟨hinline, rfl⟩ := submit_queued h
    exact .queues hinline
  | runsElsewhere _ h => exact .stays (tasks_submit h)
  | runsAtOnce hp h => exact .runsAtOnce (tasks_submit h) hp _ _
  | tells h => exact .tells h
  | changes _ _ htasks => exact .stays htasks
  | quits => exact .stays rfl
  | receives => exact .stays l.tasks_receiveOne
  | runs hp h =>
    rename_i k queue
    have hinline : { l with queue }.runsInline l.thread := ht
    have hrun := runTicket_eq hinline k
    rw [runNext, h, perform_eq_runInline hinline]
    simp only [hrun]
    exact .runs hp h _
  | begins => exact .goesOn rfl rfl rfl rfl
  | ticks => exact .goesOn rfl rfl rfl rfl
  | polls => exact .goesOn l.tasks_receiveAll rfl rfl rfl
  | finishes => exact .goesOn l.tasks_finished rfl rfl rfl
  | releases => exact .releases
  | leaves h => exact .leaves h
  | stops => exact .stops

/-! ### The account of the closures -/

/-- The account of the closures after the incidents `es`, from the queue `q₀` on. -/
structure Tally (q₀ : TaskQueue) (es : List Incident) (q : TaskQueue) : Prop where
  /-- What is queued is run or still in the queue, in the order of queueing. -/
  queued : q₀.queue ++ queuedIn es = (ranIn es).map Prod.fst ++ q.queue
  /-- What is run for a thread is told to it or waits for it, in the order of running. -/
  told (t : ThreadId) :
    toldIn t es ++ untold t q.outcomes = untold t q₀.outcomes ++ outcomesIn t es
  /-- The thread that drives the loop does not change. -/
  thread : q.thread = q₀.thread
  /-- No other thread is claimed as the frame thread. -/
  owner : q.owner.all (· = q.thread)

namespace Tally

theorem start (h : q.owner = some q.thread) :
  Tally q [] q
  where
  queued := List.append_nil _
  told _ := (List.append_nil _).symm
  thread := rfl
  owner := by
    rw [h]
    exact decide_eq_true rfl

/-- Other incidents do not matter to the account. -/
theorem append (h : Tally q₀ es q) (hqueued : queuedIn es' = []) (hran : ranIn es' = [])
    (htold : ∀ t, toldIn t es' = []) :
  Tally q₀ (es ++ es') q
  where
  queued := by
    rw [queuedIn_append, ranIn_append, hqueued, hran, List.append_nil, List.append_nil]
    exact h.queued
  told t := by
    rw [toldIn_append, outcomesIn_append, htold, List.append_nil, h.told t]
    rw [outcomesIn, outcomesIn, hran]
    exact (congrArg _ (List.append_nil _)).symm
  thread := h.thread
  owner := h.owner

theorem queues (h : Tally q₀ es q) (k : Ticket) :
  Tally q₀ (es ++ [.queued k]) { q with queue := q.queue ++ [k] }
  where
  queued := by
    rw [queuedIn_append, ← List.append_assoc, h.queued]
    simp [queuedIn, ranIn]
  told t := by
    have htold := h.told t
    simpa [toldIn, outcomesIn, ranIn] using htold
  thread := h.thread
  owner := h.owner

theorem runs {queue : List Ticket} (h : Tally q₀ es q) (hq : q.queue = k :: queue)
    (answer : Option Int) :
  Tally q₀ (es ++ [.ran k answer])
    { q with queue, outcomes := q.outcomes ++ [(k.caller, .ofAnswer answer)] }
  where
  queued := by
    have hqueued := h.queued
    rw [hq] at hqueued
    simpa [queuedIn, ranIn] using hqueued
  told t := by
    have hout : outcomesIn t [.ran k answer] = untold t [(k.caller, .ofAnswer answer)] := rfl
    have htold : toldIn t [.ran k answer] = [] := rfl
    rw [toldIn_append, outcomesIn_append, untold_append, htold, hout, List.append_nil,
      ← List.append_assoc, ← List.append_assoc, h.told t]
  thread := h.thread
  owner := h.owner

theorem tells {o : Outcome} {outcomes : List (ThreadId × Outcome)} (h : Tally q₀ es q)
    (ho : takeOutcome t q.outcomes = some (o, outcomes)) :
  Tally q₀ (es ++ [.told t o]) { q with outcomes }
  where
  queued := by
    have hqueued := h.queued
    simpa [queuedIn, ranIn] using hqueued
  told t' := by
    have hout : outcomesIn t' [.told t o] = [] := rfl
    have htold : toldIn t' [.told t o] = if t = t' then [o] else [] := untold_singleton t' t o
    rw [toldIn_append, outcomesIn_append, htold, hout, List.append_nil, List.append_assoc,
      ← untold_takeOutcome ho, h.told t']
  thread := h.thread
  owner := h.owner

theorem taskStep (h : Tally q₀ es q) (hm : TaskStep p q es' p' q') :
  Tally q₀ (es ++ es') q'
  := by
  cases hm with
  | stays heq | goesOn heq | runsAtOnce heq =>
    rw [heq]
    exact h.append rfl rfl fun _ => rfl
  | queues => exact h.queues _
  | runs hp hq answer => exact h.runs hq answer
  | tells ho => exact h.tells ho
  | releases =>
    have hreleased : Tally q₀ es { q with owner := none } := ⟨h.queued, h.told, h.thread, rfl⟩
    exact hreleased.append rfl rfl fun _ => rfl
  | leaves | stops => exact h.append rfl rfl fun _ => rfl

end Tally

/-! ### Places -/

/-- A step leads to failure if a closure fails in it, and not otherwise. -/
theorem TaskStep.failed_iff (hm : TaskStep p q es' p' q') :
  p' = .failed ↔ p = .failed ∨ ∃ e ∈ es', e.fails
  := by
  cases hm with
  | stays | queues | tells => simp [Incident.fails]
  | goesOn heq hp hp' =>
    simp [(Place.ne_of_underway hp).1, (Place.ne_of_underway hp').1]
  | runsAtOnce heq hp job answer =>
    have hfailed := (Place.ne_of_underway (Place.underway_of_callsPlatform hp)).1
    cases answer with
    | none => simp [Incident.fails]
    | some answer => simp [Incident.fails, hfailed]
  | runs hp hq answer =>
    obtain ⟨hp, hp', -⟩ := Place.next?_eq_some hp
    have hfailed := (Place.ne_of_underway hp).1
    have hfailed' := (Place.ne_of_underway hp').1
    cases answer with
    | none => simp [Incident.fails]
    | some answer => simp [Incident.fails, hfailed, hfailed']
  | releases | leaves | stops => simp [Incident.fails]

/-- The state of the queue fits the place, after the incidents `es`. -/
structure Fits (es : List Incident) (p : Place) (q : TaskQueue) : Prop where
  /-- The claim is held until it is released. -/
  claim : p ≠ .failed → q.owner = if p.released then none else some q.thread
  /-- The run has failed if a closure failed, and not otherwise. -/
  failed : p = .failed ↔ ∃ e ∈ es, e.fails
  /-- In the end nothing is queued. -/
  empty : p = .left ∨ p = .ended → q.queue = []

/-- The platform learned of the end of the run, and then nothing happened but that threads were told
outcomes. -/
def Ended (es : List Incident) : Prop :=
  ∃ during after, es = during ++ .stopped :: after ∧ .stopped ∉ during
    ∧ ∀ e ∈ after, ∃ t o, e = .told t o

/-- What the platform has learned fits the place. -/
structure Framed (es : List Incident) (p : Place) : Prop where
  /-- The start of the run lies before. -/
  started : .started ∉ es
  /-- It has not learned of the end before it. -/
  running : p ≠ .ended → .stopped ∉ es
  /-- It has learned of the end. -/
  ended : p = .ended → Ended es

theorem Ended.append_told (h : Ended es) (t : ThreadId) (o : Outcome) :
  Ended (es ++ [.told t o])
  := by
  obtain ⟨during, after, rfl, hduring, hafter⟩ := h
  refine ⟨during, after ++ [.told t o], List.append_assoc _ _ _, hduring, ?_⟩
  intro e he
  rcases List.mem_append.1 he with he | he
  · exact hafter e he
  · exact ⟨t, o, List.mem_singleton.1 he⟩

namespace Fits

/-- The claim is held while a closure has to be queued. -/
theorem not_released (h : Fits es p q) (ht : ¬ q.owner.all (· = t)) :
  p.released = false
  := by
  by_cases hfailed : p = .failed
  · rw [hfailed]
    rfl
  · rw [← Bool.not_eq_true]
    intro hreleased
    have howner := h.claim hfailed
    rw [if_pos hreleased] at howner
    rw [howner] at ht
    exact ht rfl

/-- Closures of a thread run at once if it is the frame thread or the claim is released. -/
theorem runsInline_iff (h : Fits es p l.tasks) (hp : p ≠ .failed) (t : ThreadId) :
  l.runsInline t ↔ t = l.thread ∨ p.released
  := by
  have hclaim : l.owner = if p.released then none else some l.thread := h.claim hp
  rw [runsInline, hclaim]
  cases p.released with
  | true => simp
  | false => simp [eq_comm]

theorem taskStep (h : Fits es p q) (hm : TaskStep p q es' p' q') :
  Fits (es ++ es') p' q'
  := by
  have hfailed : p' = .failed ↔ ∃ e ∈ es ++ es', e.fails := by
    rw [hm.failed_iff, h.failed]
    simp only [List.mem_append, or_and_right, exists_or]
  cases hm with
  | stays heq =>
    rw [heq]
    exact ⟨h.claim, hfailed, h.empty⟩
  | goesOn heq hp hp' hreleased =>
    obtain ⟨hne, -, -⟩ := Place.ne_of_underway hp
    obtain ⟨-, hleft, hended⟩ := Place.ne_of_underway hp'
    rw [heq]
    refine ⟨?_, hfailed, fun h => h.elim (absurd · hleft) (absurd · hended)⟩
    intro _
    rw [hreleased]
    exact h.claim hne
  | runsAtOnce heq hp job answer =>
    rw [heq]
    cases answer with
    | none => exact ⟨absurd rfl, hfailed, fun h => h.elim nofun nofun⟩
    | some answer => exact ⟨h.claim, hfailed, h.empty⟩
  | queues hk =>
    have hheld := h.not_released hk
    refine ⟨h.claim, hfailed, ?_⟩
    rintro (rfl | rfl)
    · exact nomatch hheld
    · exact nomatch hheld
  | runs hp hq answer =>
    obtain ⟨hp, hp', hreleased⟩ := Place.next?_eq_some hp
    obtain ⟨hne, -, -⟩ := Place.ne_of_underway hp
    obtain ⟨-, hleft, hended⟩ := Place.ne_of_underway hp'
    cases answer with
    | none => exact ⟨absurd rfl, hfailed, fun h => h.elim nofun nofun⟩
    | some answer =>
      refine ⟨?_, hfailed, fun h => h.elim (absurd · hleft) (absurd · hended)⟩
      intro _
      exact (h.claim hne).trans (by rw [← hreleased]; rfl)
  | tells => exact ⟨h.claim, hfailed, h.empty⟩
  | releases => exact ⟨fun _ => rfl, hfailed, fun h => h.elim nofun nofun⟩
  | leaves hq => exact ⟨fun _ => h.claim nofun, hfailed, fun _ => hq⟩
  | stops => exact ⟨fun _ => h.claim nofun, hfailed, fun _ => h.empty (.inl rfl)⟩

end Fits

namespace Framed

theorem not_started {e : Incident} (h : Framed es p) (he : e ≠ .started) :
  .started ∉ es ++ [e]
  := by
  rw [List.mem_append, List.mem_singleton, not_or]
  exact ⟨h.started, he.symm⟩

theorem goesOn (h : Framed es p) (hp : p ≠ .ended) (hp' : p' ≠ .ended) :
  Framed es p'
  := ⟨h.started, fun _ => h.running hp, fun hended => absurd hended hp'⟩

/-- A closure is queued or run before the end. -/
theorem append {e : Incident} (h : Framed es p) (hp : p ≠ .ended) (hp' : p' ≠ .ended)
    (hstarted : e ≠ .started) (hstopped : e ≠ .stopped) :
  Framed (es ++ [e]) p'
  where
  started := h.not_started hstarted
  running _ := by
    rw [List.mem_append, List.mem_singleton, not_or]
    exact ⟨h.running hp, hstopped.symm⟩
  ended hended := absurd hended hp'

theorem taskStep (h : Framed es p) (hfits : Fits es p q) (hm : TaskStep p q es' p' q') :
  Framed (es ++ es') p'
  := by
  cases hm with
  | stays => rwa [List.append_nil]
  | goesOn heq hp hp' =>
    rw [List.append_nil]
    exact h.goesOn (Place.ne_of_underway hp).2.2 (Place.ne_of_underway hp').2.2
  | runsAtOnce heq hp job answer =>
    have hended := (Place.ne_of_underway (Place.underway_of_callsPlatform hp)).2.2
    cases answer with
    | none => exact h.append hended nofun nofun nofun
    | some answer => exact h.append hended hended nofun nofun
  | queues hk =>
    have hp : p ≠ .ended := by
      rintro rfl
      exact nomatch hfits.not_released hk
    exact h.append hp hp nofun nofun
  | runs hp hq answer =>
    obtain ⟨hp, hp', -⟩ := Place.next?_eq_some hp
    have hended := (Place.ne_of_underway hp).2.2
    cases answer with
    | none => exact h.append hended nofun nofun nofun
    | some answer => exact h.append hended (Place.ne_of_underway hp').2.2 nofun nofun
  | tells ho =>
    by_cases hp : p = .ended
    · exact ⟨h.not_started nofun, absurd hp, fun _ => (h.ended hp).append_told _ _⟩
    · exact h.append hp hp nofun nofun
  | releases | leaves =>
    rw [List.append_nil]
    exact h.goesOn nofun nofun
  | stops =>
    exact ⟨h.not_started nofun, absurd rfl, fun _ => ⟨es, [], rfl, h.running nofun, nofun⟩⟩

end Framed

/-! ### Runs -/

/-- All that holds throughout a run. -/
structure InOrder (q₀ : TaskQueue) (es : List Incident) (p : Place) (q : TaskQueue) : Prop where
  /-- The closures are accounted for. -/
  tally : Tally q₀ es q
  /-- The state of the queue fits the place. -/
  fits : Fits es p q
  /-- So does what the platform has learned. -/
  framed : Framed es p

theorem InOrder.start (h : q.owner = some q.thread) :
  InOrder q [] .starting q
  := by
  refine ⟨.start h, ⟨fun _ => h, ?_, ?_⟩, ⟨List.not_mem_nil, fun _ => List.not_mem_nil, nofun⟩⟩
  · exact ⟨nofun, fun ⟨e, he, _⟩ => absurd he List.not_mem_nil⟩
  · exact fun hp => hp.elim nofun nofun

theorem InOrder.steps (hsteps : Steps p l es' p' l') (h : InOrder q₀ es p l.tasks) :
  InOrder q₀ (es ++ es') p' l'.tasks
  := by
  induction hsteps with
  | refl => rwa [List.append_nil]
  | tail _ hstep ih =>
    have hm := hstep.taskStep ih.tally.owner
    rw [← List.append_assoc]
    exact ⟨ih.tally.taskStep hm, ih.fits.taskStep hm, ih.framed.taskStep ih.fits hm⟩

/-! ### The closures of a run -/

/-- Wherever a run has come to, the closures that were queued are those that were run, in this order
and with none left out or run twice, and then those still in the queue.  What the closures of a
thread answered is what the thread was told, in this order, and then what waits for it; and it is
an answer, unless a closure failed on the frame thread and ended the run.  All of this comes after
the platform learns that the run has begun and before it learns that it is over, when the queue is
empty.  A closure that is handed in comes last in the queue, or runs at once if its thread is the
frame thread or the claim is released; and it acts on the studio alone, with all that it hands on.

The turns of the loop and its end are steps of a run: `TurnsInOrder` and `LeavesInOrder` tell what
they run, what they come to and that the end is reached if the closures queued come to theirs.  A
thread for which an outcome waits can always be told, and from any place the run can come to its
end by running just the closures queued. -/
theorem closures_run_once {l₀ : FrameLoop} (h : l₀.Runs es p l) :
  l₀.queue ++ queuedIn es = (ranIn es).map Prod.fst ++ l.queue
    ∧ (∀ t, toldIn t es ++ untold t l.outcomes = untold t l₀.outcomes ++ outcomesIn t es)
    ∧ (p = .failed ↔ ∃ e ∈ es, e.fails)
    ∧ (p ≠ .failed → ∀ d ∈ ranIn es, d.2.isSome)
    ∧ (p ≠ .failed → l.owner = if p.released then none else some l.thread)
    ∧ (∃ l₁ later, l₀.enter? = some l₁ ∧ Steps .starting l₁ later p l
      ∧ l₁.tasks = { l₀.tasks with owner := some l₀.thread }
      ∧ l₁.studio.host.log.events = .started :: l₀.studio.host.log.events
      ∧ es = .started :: later ∧ .started ∉ later)
    ∧ (p ≠ .ended → .stopped ∉ es)
    ∧ (p = .ended → Ended es)
    ∧ (p = .left ∨ p = .ended → l.queue = [])
    ∧ (p ≠ .failed → ∀ t job, l.submit t job = if t = l.thread ∨ p.released then
        (.ran (job.runInline (l.isOwner t) l.studio).1,
          { l with studio := (job.runInline (l.isOwner t) l.studio).2 })
      else (.queued, { l with queue := l.queue ++ [⟨t, job⟩] }))
    ∧ (∀ queue job, perform l.thread job { l with queue }
      = ((job.runInline (l.isOwner l.thread) l.studio).1,
        { l with queue, studio := (job.runInline (l.isOwner l.thread) l.studio).2 }))
    ∧ (p = .waiting → l.phase ≠ .quit → ∀ (ε : Type) (poll : ε → FrameLoop → ε × FrameLoop) e,
      TurnsInOrder poll e l)
    ∧ (p = .waiting → l.phase = .quit → LeavesInOrder l)
    ∧ (∀ t, untold t l.outcomes ≠ [] → ∃ o l', Step p l [.told t o] p l')
    ∧ (p ≠ .failed → p ≠ .ended → (∀ k ∈ l.queue, k.job.Returns) → EndsInOrder p l)
  := by
  obtain ⟨l₁, later, henter, hsteps, rfl⟩ := h
  have hentered : l₁.tasks = { l₀.tasks with owner := some l₀.thread }
      ∧ l₁.studio.host.log.events = .started :: l₀.studio.host.log.events := by
    rw [enter?] at henter
    split at henter
    · rw [← Option.some.inj henter]
      exact ⟨rfl, rfl⟩
    · exact nomatch henter
  have hstart : InOrder l₁.tasks [] .starting l₁.tasks := by
    rw [hentered.1]
    exact .start rfl
  obtain ⟨htally, hfits, hframed⟩ := hstart.steps hsteps
  rw [List.nil_append] at htally hfits hframed
  have hfailed : p = .failed ↔ ∃ e ∈ Incident.started :: later, e.fails := by
    rw [hfits.failed, List.exists_mem_cons_iff]
    exact (or_iff_right nofun).symm
  refine ⟨?_, ?_, hfailed, ?_, hfits.claim,
    ⟨l₁, later, henter, hsteps, hentered.1, hentered.2, rfl, hframed.started⟩, ?_, ?_, hfits.empty,
    ?_, ?_, ?_, ?_, ?_, ?_⟩
  · have hqueued := htally.queued
    rwa [hentered.1] at hqueued
  · have htold := htally.told
    rwa [hentered.1] at htold
  · intro hp d hd
    rw [← Option.ne_none_iff_isSome]
    intro hnone
    exact hp (hfailed.2 ⟨_, mem_ranIn.1 hd, Option.isNone_iff_eq_none.2 hnone⟩)
  · exact fun hp he => (List.mem_cons.1 he).elim nofun (hframed.running hp)
  · intro hp
    obtain ⟨during, after, rfl, hduring, hafter⟩ := hframed.ended hp
    exact ⟨.started :: during, after, rfl,
      fun he => (List.mem_cons.1 he).elim nofun hduring, hafter⟩
  · intro hp t job
    rw [submit_eq]
    simp only [hfits.runsInline_iff hp]
  · exact fun queue job => perform_eq_runInline (l := { l with queue }) htally.owner job
  · exact fun _ hphase ε poll e => turnsInOrder hphase htally.owner
  · exact fun _ hphase => leavesInOrder hphase
  · intro t ht
    obtain ⟨o, outcomes, htake⟩ := exists_takeOutcome ht
    exact ⟨o, _, .tells htake⟩
  · intro hp hended
    exact endsInOrder hp hended (fun hleft => hfits.empty (.inl hleft)) htally.owner

/-- A closure that hands on another and goes on with its answer. -/
def handingOn : Job := .hand (.finish 1) fun answer => .finish (answer + 1)

/-- Two threads hand in a closure each; the first is run in a turn, the second after the loop has
quit. -/
def twoCallers : List Incident :=
  [.started, .queued ⟨⟨1⟩, handingOn⟩, .queued ⟨⟨2⟩, .finish 5⟩, .ran ⟨⟨1⟩, handingOn⟩ (some 2),
    .told ⟨1⟩ (.ok 2), .ran ⟨⟨2⟩, .finish 5⟩ (some 5), .stopped, .told ⟨2⟩ (.ok 5)]

/-- In the end both threads have been told the answer, and nothing is left. -/
theorem closures_run_once_twoCallers :
  ∃ l, (ofConfig .spread .standard .prompt).Runs twoCallers .ended l ∧ l.queue = []
    ∧ untold ⟨1⟩ l.outcomes = [] ∧ untold ⟨2⟩ l.outcomes = []
  := by
  have hruns : ∃ l, (ofConfig .spread .standard .prompt).Runs twoCallers .ended l := by
    let l₁ := { ofConfig .spread .standard .prompt with
      phase := .running, owner := some ⟨0⟩ }.record .started
    have hqueues := ((Steps.single (.begins (l := l₁))).tail (.queues ⟨1⟩ handingOn rfl)).tail
      (.queues ⟨2⟩ (.finish 5) rfl)
    have hserves := ((hqueues.tail (.runs rfl rfl)).tail (.tells (t := ⟨1⟩) rfl)).tail
      (.changes { l₁ with quitRequests := 1, queue := [⟨⟨2⟩, .finish 5⟩] } rfl rfl)
    have hleaves := ((hserves.tail (.quits nofun rfl)).tail (.releases rfl)).tail (.runs rfl rfl)
    have hends := ((hleaves.tail (.leaves rfl)).tail .stops).tail (.tells (t := ⟨2⟩) rfl)
    exact ⟨_, _, _, rfl, hends, rfl⟩
  obtain ⟨l, hl⟩ := hruns
  obtain ⟨-, htold, -, -, -, -, -, -, hempty, -⟩ := closures_run_once hl
  have hfirst : [Outcome.ok 2] ++ untold ⟨1⟩ l.outcomes = [.ok 2] ++ [] := htold ⟨1⟩
  have hsecond : [Outcome.ok 5] ++ untold ⟨2⟩ l.outcomes = [.ok 5] ++ [] := htold ⟨2⟩
  exact ⟨l, hl, hempty (.inr rfl), List.append_cancel_left hfirst, List.append_cancel_left hsecond⟩

end FrameCache.FrameLoop
