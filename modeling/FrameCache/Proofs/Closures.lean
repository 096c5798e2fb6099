import FrameCache.FrameLoop.Run
import FrameCache.Proofs.Frames

/-!
# Closures on the frame thread

The frame thread runs a closure on the studio alone.  A closure that it hands on runs at once, in
the middle of the first, whether the frame thread is claimed or not; so the rest of the loop, its
queue included, is not involved.  `Job.runInline` is this run, and `Ticket.runInTurn` runs closures
one after the other.

`FrameLoop.runFirst` runs the first closures of the queue in turn.  Whatever the loop does with its
queue is an instance of it: a turn that serves a closure, the draining of the queue at the beginning
of a frame, and the one at the end of a run.  Otherwise frames leave the queue alone.
-/

namespace FrameCache

/-- Runs a closure, and each closure that it hands on at once. -/
def Job.runInline (onFrame : Bool) : Job → Studio → Option Int × Studio
  | .finish answer, s => (some answer, s)
  | .fail, s => (none, s)
  | .act f next, s => next.runInline onFrame (f onFrame s)
  | .hand inner next, s =>
    match inner.runInline onFrame s with
    | (some answer, s) => (next answer).runInline onFrame s
    | (none, s) => (none, s)

/-- The closure comes to its end, whatever it acts on. -/
def Job.Returns (job : Job) : Prop := ∀ onFrame s, (job.runInline onFrame s).1.isSome

/-- What a thread learns of a closure that it waited for. -/
def Outcome.ofAnswer : Option Int → Outcome
  | some answer => .ok answer
  | none => .stopped

namespace Ticket

/-- Runs closures one after the other, up to the first that fails, and gives those that were run
with their answers. -/
def runInTurn (onFrame : Bool) : List Ticket → Studio → List (Ticket × Option Int) × Studio
  | [], s => ([], s)
  | k :: ks, s =>
    let (answer, s) := k.job.runInline onFrame s
    if answer.isSome then
      let (ran, s) := runInTurn onFrame ks s
      ((k, answer) :: ran, s)
    else ([(k, answer)], s)

/-- The closures that were run have answered. -/
def answered (ran : List (Ticket × Option Int)) : Bool := ran.all fun d => d.2.isSome

/-- What the callers of the closures that were run learn. -/
def outcomes (ran : List (Ticket × Option Int)) : List (ThreadId × Outcome) :=
  ran.map fun d => (d.1.caller, .ofAnswer d.2)

theorem runInTurn_cons (onFrame : Bool) (k : Ticket) (ks : List Ticket) (s : Studio) :
  runInTurn onFrame (k :: ks) s = if (k.job.runInline onFrame s).1.isSome then
      ((k, (k.job.runInline onFrame s).1)
          :: (runInTurn onFrame ks (k.job.runInline onFrame s).2).1,
        (runInTurn onFrame ks (k.job.runInline onFrame s).2).2)
    else ([(k, (k.job.runInline onFrame s).1)], (k.job.runInline onFrame s).2)
  := rfl

theorem runInTurn_singleton (onFrame : Bool) (k : Ticket) (s : Studio) :
  runInTurn onFrame [k] s
    = ([(k, (k.job.runInline onFrame s).1)], (k.job.runInline onFrame s).2)
  := by
  rw [runInTurn_cons]
  split
  · rfl
  · rfl

/-- The closures that are run are the first ones. -/
theorem runInTurn_prefix (onFrame : Bool) (ks : List Ticket) (s : Studio) :
  (runInTurn onFrame ks s).1.map Prod.fst <+: ks
  := by
  induction ks generalizing s with
  | nil => exact List.nil_prefix
  | cons k ks ih =>
    rw [runInTurn_cons]
    split
    · exact (List.prefix_cons_inj k).2 (ih _)
    · exact (List.prefix_cons_inj k).2 List.nil_prefix

/-- If all that were run have answered, none is left out. -/
theorem runInTurn_all {onFrame : Bool} {ks : List Ticket} {s : Studio}
    (h : answered (runInTurn onFrame ks s).1) :
  (runInTurn onFrame ks s).1.map Prod.fst = ks
  := by
  induction ks generalizing s with
  | nil => rfl
  | cons k ks ih =>
    rw [runInTurn_cons] at h ⊢
    split
    · rename_i hanswer
      rw [if_pos hanswer] at h
      exact congrArg (k :: ·) (ih (Bool.and_eq_true _ _ ▸ h).2)
    · rename_i hanswer
      rw [if_neg hanswer] at h
      exact absurd (Bool.and_eq_true _ _ ▸ h).1 hanswer

/-- Closures that come to their end have answered. -/
theorem answered_runInTurn {ks : List Ticket} (hks : ∀ k ∈ ks, k.job.Returns) (onFrame : Bool)
    (s : Studio) :
  answered (runInTurn onFrame ks s).1
  := by
  induction ks generalizing s with
  | nil => rfl
  | cons k ks ih =>
    have hk := hks k List.mem_cons_self onFrame s
    rw [runInTurn_cons, if_pos hk]
    change (_ && _) = true
    rw [Bool.and_eq_true]
    exact ⟨hk, ih (fun k hk => hks k (List.mem_cons_of_mem _ hk)) _⟩

end Ticket

/-- The state of the queue of closures. -/
@[ext]
structure TaskQueue where
  /-- The thread that drives the loop. -/
  thread : ThreadId
  /-- The thread claimed as the frame thread. -/
  owner : Option ThreadId
  /-- The closures not yet run, the oldest first. -/
  queue : List Ticket
  /-- The outcomes that the callers are not told yet, the oldest first. -/
  outcomes : List (ThreadId × Outcome)

namespace FrameLoop

/-- The queue of closures, with all that belongs to it. -/
def tasks (l : FrameLoop) : TaskQueue := ⟨l.thread, l.owner, l.queue, l.outcomes⟩

variable {l : FrameLoop} {t : ThreadId}

/-! ### Running a closure -/

/-- Where closures of a thread run at once, one that it performs acts on the studio alone. -/
theorem perform_eq_runInline (ht : l.runsInline t) (job : Job) :
  perform t job l = ((job.runInline (l.isOwner t) l.studio).1,
    { l with studio := (job.runInline (l.isOwner t) l.studio).2 })
  := by
  induction job generalizing l with
  | finish answer => rfl
  | fail => rfl
  | act f next ih =>
    rw [perform, ih (l := { l with studio := f (l.isOwner t) l.studio }) ht]
    rfl
  | hand inner next ihinner ihnext =>
    rw [perform, if_pos ht, ihinner ht, Job.runInline]
    rcases inner.runInline (l.isOwner t) l.studio with ⟨_ | answer, s⟩
    · rfl
    · exact ihnext answer (l := { l with studio := s }) ht

/-- A closure handed in acts on the studio alone if it runs at once, and otherwise comes last in the
queue. -/
theorem submit_eq (l : FrameLoop) (t : ThreadId) (job : Job) :
  l.submit t job = if l.runsInline t then
      (.ran (job.runInline (l.isOwner t) l.studio).1,
        { l with studio := (job.runInline (l.isOwner t) l.studio).2 })
    else (.queued, { l with queue := l.queue ++ [⟨t, job⟩] })
  := by
  rw [submit]
  split
  · rename_i ht
    rw [perform_eq_runInline ht]
  · rfl

/-- The queue does not matter to a closure that runs at once. -/
theorem runTicket_eq (ht : l.runsInline l.thread) (k : Ticket) :
  l.runTicket k = ((k.job.runInline (l.isOwner l.thread) l.studio).1.isSome, { l with
    studio := (k.job.runInline (l.isOwner l.thread) l.studio).2
    outcomes := l.outcomes
      ++ [(k.caller, Outcome.ofAnswer (k.job.runInline (l.isOwner l.thread) l.studio).1)] })
  := by
  rw [runTicket, perform_eq_runInline ht]
  split
  · rename_i answer l' h
    obtain ⟨hanswer, rfl⟩ := Prod.mk.inj h
    rw [hanswer]
    rfl
  · rename_i l' h
    obtain ⟨hanswer, rfl⟩ := Prod.mk.inj h
    rw [hanswer]
    rfl

theorem runTickets_cons (k : Ticket) (ks : List Ticket) (l : FrameLoop) :
  runTickets (k :: ks) l = if (l.runTicket k).1 then
      (((runTickets ks (l.runTicket k).2).1.1 + 1, (runTickets ks (l.runTicket k).2).1.2),
        (runTickets ks (l.runTicket k).2).2)
    else ((0, false), { (l.runTicket k).2 with queue := ks ++ (l.runTicket k).2.queue })
  := by
  rw [runTickets]
  split
  · rename_i h
    rw [h]
    rfl
  · rename_i h
    rw [h]
    rfl

/-! ### Running closures in turn -/

/-- The loop after closures of its queue were run, which left `studio`. -/
def afterRunning (l : FrameLoop) (ran : List (Ticket × Option Int)) (studio : Studio) :
    FrameLoop :=
  { l with
    studio
    queue := l.queue.drop ran.length
    outcomes := l.outcomes ++ Ticket.outcomes ran }

/-- Runs the first `n` closures of the queue in turn, up to the first that fails, and tells their
callers what came of them. -/
def runFirst (n : Nat) (l : FrameLoop) : List (Ticket × Option Int) × FrameLoop :=
  let (ran, studio) := Ticket.runInTurn (l.isOwner l.thread) (l.queue.take n) l.studio
  (ran, l.afterRunning ran studio)

@[simp]
theorem isOwner_afterRunning (l : FrameLoop) (ran : List (Ticket × Option Int)) (studio : Studio)
    (t : ThreadId) :
  (l.afterRunning ran studio).isOwner t = l.isOwner t
  := rfl

@[simp]
theorem thread_afterRunning (l : FrameLoop) (ran : List (Ticket × Option Int)) (studio : Studio) :
  (l.afterRunning ran studio).thread = l.thread
  := rfl

@[simp]
theorem studio_afterRunning (l : FrameLoop) (ran : List (Ticket × Option Int)) (studio : Studio) :
  (l.afterRunning ran studio).studio = studio
  := rfl

theorem afterRunning_nil (l : FrameLoop) :
  l.afterRunning [] l.studio = l
  := by
  rw [afterRunning, Ticket.outcomes, List.map_nil, List.append_nil]
  rfl

theorem afterRunning_append (l : FrameLoop) (ran ran' : List (Ticket × Option Int))
    (studio studio' : Studio) :
  (l.afterRunning ran studio).afterRunning ran' studio' = l.afterRunning (ran ++ ran') studio'
  := by
  simp [afterRunning, Ticket.outcomes]

/-- A closure that was taken out of the queue leaves the rest of the queue as it is. -/
theorem runTicket_eq_afterRunning (ht : l.runsInline l.thread) (k : Ticket) (queue : List Ticket) :
  { l with queue }.runTicket k
    = ((k.job.runInline (l.isOwner l.thread) l.studio).1.isSome,
      { l.afterRunning [(k, (k.job.runInline (l.isOwner l.thread) l.studio).1)]
          (k.job.runInline (l.isOwner l.thread) l.studio).2 with queue })
  := runTicket_eq (l := { l with queue }) ht k

/-- From `l` to `l'` the closures `ran` are run from the queue, with these answers. -/
structure RunsFront (l : FrameLoop) (ran : List (Ticket × Option Int)) (l' : FrameLoop) :
    Prop where
  /-- They leave the queue at its front. -/
  queue : l.queue = ran.map Prod.fst ++ l'.queue
  /-- Their callers are told what came of them, in the same order. -/
  outcomes : l'.outcomes = l.outcomes ++ Ticket.outcomes ran

theorem runsFront_runFirst (n : Nat) (l : FrameLoop) :
  RunsFront l (l.runFirst n).1 (l.runFirst n).2
  where
  queue := by
    obtain ⟨rest, hrest⟩ :=
      Ticket.runInTurn_prefix (l.isOwner l.thread) (l.queue.take n) l.studio
    have hqueue : (l.runFirst n).1.map Prod.fst ++ (rest ++ l.queue.drop n) = l.queue := by
      rw [← List.append_assoc, runFirst, hrest, List.take_append_drop]
    have hdrop : (l.runFirst n).2.queue
        = l.queue.drop ((l.runFirst n).1.map Prod.fst).length := by
      rw [List.length_map]
      rfl
    conv at hdrop =>
      rhs
      rw [← hqueue, List.drop_left]
    rw [hdrop, hqueue]
  outcomes := rfl

/-- If all closures that were run have answered, then `n` of them were run, if there are as many. -/
theorem runFirst_all {n : Nat} (h : Ticket.answered (l.runFirst n).1) :
  (l.runFirst n).1.map Prod.fst = l.queue.take n
  := Ticket.runInTurn_all h

/-- If all closures that are queued have answered, nothing is left of the queue. -/
theorem queue_runFirst_length (h : Ticket.answered (l.runFirst l.queue.length).1) :
  (l.runFirst l.queue.length).2.queue = []
  := by
  have hqueue := (runsFront_runFirst l.queue.length l).queue
  rw [runFirst_all h, List.take_length] at hqueue
  exact List.self_eq_append_right.1 hqueue

/-- Closures that come to their end have answered. -/
theorem answered_runFirst (hqueue : ∀ k ∈ l.queue, k.job.Returns) (n : Nat) :
  Ticket.answered (l.runFirst n).1
  := Ticket.answered_runInTurn (fun k hk => hqueue k (List.mem_of_mem_take hk)) _ _

theorem runNext_of_queue {k : Ticket} {queue : List Ticket} (ht : l.runsInline l.thread)
    (h : l.queue = k :: queue) :
  l.runNext = ((k.job.runInline (l.isOwner l.thread) l.studio).1.isSome,
    l.afterRunning [(k, (k.job.runInline (l.isOwner l.thread) l.studio).1)]
      (k.job.runInline (l.isOwner l.thread) l.studio).2)
  := by
  rw [runNext, h]
  dsimp only
  rw [runTicket_eq_afterRunning ht]
  simp [afterRunning, h]

/-- A turn that serves a closure runs the first one. -/
theorem runNext_eq (ht : l.runsInline l.thread) :
  l.runNext = (Ticket.answered (l.runFirst 1).1, (l.runFirst 1).2)
  := by
  rcases hqueue : l.queue with _ | ⟨k, queue⟩
  · rw [runNext, runFirst, hqueue]
    exact congrArg (Prod.mk true) l.afterRunning_nil.symm
  · rw [runNext_of_queue ht hqueue, runFirst, hqueue, List.take_succ_cons, List.take_zero,
      Ticket.runInTurn_singleton]
    simp [Ticket.answered]

theorem runTickets_eq {ks : List Ticket} (ht : l.runsInline l.thread) (hqueue : l.queue = ks) :
  let d := Ticket.runInTurn (l.isOwner l.thread) ks l.studio
  runTickets ks { l with queue := [] }
    = ((d.1.countP fun d => d.2.isSome, Ticket.answered d.1), l.afterRunning d.1 d.2)
  := by
  induction ks generalizing l with
  | nil =>
    have heq : { l with queue := [] } = l := by rw [← hqueue]
    rw [heq]
    exact congrArg (Prod.mk (0, true)) l.afterRunning_nil.symm
  | cons k ks ih =>
    rw [runTickets_cons, runTicket_eq_afterRunning ht, Ticket.runInTurn_cons]
    generalize k.job.runInline (l.isOwner l.thread) l.studio = run
    have hrest : (l.afterRunning [(k, run.1)] run.2).queue = ks := by
      rw [afterRunning, hqueue]
      rfl
    by_cases h : run.1.isSome
    · rw [if_pos h, if_pos h, ih (l := l.afterRunning [(k, run.1)] run.2) ht hrest,
        afterRunning_append]
      simp [Ticket.answered, h]
    · have hfailed : Ticket.answered [(k, run.1)] = false := by simp [Ticket.answered, h]
      have hcount : [(k, run.1)].countP (fun d => d.2.isSome) = 0 := by simp [h]
      rw [if_neg h, if_neg h]
      dsimp only
      rw [hfailed, hcount, List.append_nil, ← hrest]

/-- Draining runs all closures that are queued. -/
theorem drain_eq_runFirst (ht : l.runsInline l.thread) :
  l.drain = (((l.runFirst l.queue.length).1.countP fun d => d.2.isSome,
      Ticket.answered (l.runFirst l.queue.length).1), (l.runFirst l.queue.length).2)
  := by
  rw [drain, runTickets_eq ht rfl, runFirst, List.take_length]

/-! ### What closures reach -/

theorem exists_perform_eq (t : ThreadId) (job : Job) (l : FrameLoop) :
  ∃ studio queue, (perform t job l).2 = { l with studio, queue }
  := by
  induction job generalizing l with
  | finish answer => exact ⟨_, _, rfl⟩
  | fail => exact ⟨_, _, rfl⟩
  | act f next ih =>
    obtain ⟨studio, queue, hnext⟩ := ih { l with studio := f (l.isOwner t) l.studio }
    exact ⟨studio, queue, hnext⟩
  | hand inner next ihinner ihnext =>
    rw [perform]
    split
    · obtain ⟨studio, queue, hinner⟩ := ihinner l
      split
      · rename_i answer l' h
        rw [h] at hinner
        obtain rfl : l' = _ := hinner
        exact ihnext answer _
      · rename_i l' h
        rw [h] at hinner
        exact ⟨studio, queue, hinner⟩
    · exact ⟨_, _, rfl⟩

theorem exists_runTicket_eq (l : FrameLoop) (k : Ticket) :
  ∃ studio queue outcomes, (l.runTicket k).2 = { l with studio, queue, outcomes }
  := by
  obtain ⟨studio, queue, hperform⟩ := exists_perform_eq l.thread k.job l
  rw [runTicket]
  split
  · rename_i answer l' h
    rw [h] at hperform
    obtain rfl : l' = _ := hperform
    exact ⟨studio, queue, _, rfl⟩
  · rename_i l' h
    rw [h] at hperform
    obtain rfl : l' = _ := hperform
    exact ⟨studio, queue, _, rfl⟩

theorem exists_runTickets_eq (ks : List Ticket) (l : FrameLoop) :
  ∃ studio queue outcomes, (runTickets ks l).2 = { l with studio, queue, outcomes }
  := by
  induction ks generalizing l with
  | nil => exact ⟨_, _, _, rfl⟩
  | cons k ks ih =>
    obtain ⟨studio, queue, outcomes, hk⟩ := exists_runTicket_eq l k
    rw [runTickets]
    split
    · rename_i l' h
      rw [h] at hk
      obtain rfl : l' = _ := hk
      exact ih _
    · rename_i l' h
      rw [h] at hk
      obtain rfl : l' = _ := hk
      exact ⟨studio, _, outcomes, rfl⟩

/-- Running closures changes nothing but the studio, the queue and the outcomes. -/
theorem drain_eq (l : FrameLoop) :
  l.drain.2 = { l with
    studio := l.drain.2.studio
    queue := l.drain.2.queue
    outcomes := l.drain.2.outcomes }
  := by
  obtain ⟨studio, queue, outcomes, h⟩ := exists_runTickets_eq l.queue { l with queue := [] }
  rw [drain, h]

/-! ### Frames -/

section

variable {ε : Type} (poll : ε → FrameLoop → ε × FrameLoop)

/-- If the closures queued come to their end, the platform polls and the frame goes on to its
end. -/
theorem turn_tick_of_drained (hphase : l.phase ≠ .quit) (hfine : l.drain.1.2 = true) (e : ε) :
  let polled := poll e (l.drain.2.receiveAll.record .polled)
  l.turn poll .tick e = (true, polled.1, polled.2.finished)
  := by
  change (!(l.tick poll e).1.aborted, (l.tick poll e).2.1, (l.tick poll e).2.2) = _
  rw [tick, if_neg hphase]
  rcases hdrain : l.drain with ⟨⟨n, fine⟩, l'⟩
  rw [hdrain] at hfine
  obtain rfl : fine = true := hfine
  rfl

/-- If one of them fails, the frame goes no further. -/
theorem turn_tick_of_failed (hphase : l.phase ≠ .quit) (hfails : l.drain.1.2 = false) (e : ε) :
  l.turn poll .tick e = (false, e, l.drain.2)
  := by
  change (!(l.tick poll e).1.aborted, (l.tick poll e).2.1, (l.tick poll e).2.2) = _
  rw [tick, if_neg hphase]
  rcases hdrain : l.drain with ⟨⟨n, fine⟩, l'⟩
  rw [hdrain] at hfails
  obtain rfl : fine = false := hfails
  rfl

theorem turn_tick_of_answered (hphase : l.phase ≠ .quit) (ht : l.runsInline l.thread)
    (h : Ticket.answered (l.runFirst l.queue.length).1) (e : ε) :
  let polled := poll e ((l.runFirst l.queue.length).2.receiveAll.record .polled)
  l.turn poll .tick e = (true, polled.1, polled.2.finished)
  := by
  have hturn := turn_tick_of_drained poll hphase (by rw [drain_eq_runFirst ht, h]) e
  rwa [drain_eq_runFirst ht] at hturn

theorem turn_tick_of_not_answered (hphase : l.phase ≠ .quit) (ht : l.runsInline l.thread)
    (h : ¬ Ticket.answered (l.runFirst l.queue.length).1) (e : ε) :
  l.turn poll .tick e = (false, e, (l.runFirst l.queue.length).2)
  := by
  have hfails : l.drain.1.2 = false := by rw [drain_eq_runFirst ht, Bool.eq_false_iff.2 h]
  have hturn := turn_tick_of_failed poll hphase hfails e
  rwa [drain_eq_runFirst ht] at hturn

end

/-! ### The end of a run -/

/-- If the closures queued answer, the platform learns of the end. -/
theorem leave_of_answered
    (h : Ticket.answered ({ l with owner := none }.runFirst l.queue.length).1) :
  l.leave = (true, ({ l with owner := none }.runFirst l.queue.length).2.record .stopped)
  := by
  have hdrain := drain_eq_runFirst (l := { l with owner := none }) rfl
  rw [leave, hdrain, h]

/-- If one of them fails, nothing comes after. -/
theorem leave_of_not_answered
    (h : ¬ Ticket.answered ({ l with owner := none }.runFirst l.queue.length).1) :
  l.leave = (false, ({ l with owner := none }.runFirst l.queue.length).2)
  := by
  have hdrain := drain_eq_runFirst (l := { l with owner := none }) rfl
  rw [leave, hdrain, Bool.eq_false_iff.2 h]

/-! ### The queue during a frame -/

theorem undrawn_tasks :
  Undrawn tasks
  := fun _ _ _ _ _ => rfl

/-- The rest of a frame leaves the queue alone. -/
theorem tasks_finished (l : FrameLoop) :
  l.finished.tasks = l.tasks
  := undrawn_tasks.finished_eq (fun _ => rfl) l

/-- A part of the loop that has nothing to do with the settings either is left alone when a change
of them is received. -/
theorem Undrawn.receiveOne_eq {α : Type} {f : FrameLoop → α} (h : Undrawn f)
    (hsettings : ∀ (l : FrameLoop) settings, f { l with settings } = f l) (l : FrameLoop) :
  f l.receiveOne = f l
  := by
  rw [receiveOne]
  split
  · exact (h.restyle_eq _).trans (hsettings l _)
  · rfl

theorem tasks_receiveOne (l : FrameLoop) :
  l.receiveOne.tasks = l.tasks
  := undrawn_tasks.receiveOne_eq (fun _ _ => rfl) l

theorem tasks_receiveAll (l : FrameLoop) :
  l.receiveAll.tasks = l.tasks
  := by
  rw [receiveAll]
  split
  · rfl
  · split
    · rfl
    · exact undrawn_tasks.restyle_eq _

end FrameLoop

end FrameCache
