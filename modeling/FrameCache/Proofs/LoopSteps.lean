import FrameCache.Proofs.Closures

/-!
# Steps of the loop among other threads

While the loop runs, other threads hand in closures and are told outcomes, the environment changes
what it likes, and the frame thread serves whichever channel it picks among those that are ready.
`Step` is a single step of any of them, `Steps` any number of steps, and `Runs` all that a run can
come to.  Running a closure is a single step, and so is the part of a frame after the platform
polls: neither looks at the queue, so nothing is lost by having the other threads go on before or
after it only.  The frame thread hands in closures of its own while it runs one, which is part of
running it, and while the platform learns of the start or polls.

The turns of the loop and its end consist of such steps: `TurnsInOrder` and `LeavesInOrder` say of
which, and what they come to.  Unless a closure fails, they can always lead to the end of the run.
-/

namespace FrameCache.FrameLoop

/-! ### Places and incidents -/

/-- Where the frame thread is in a run. -/
inductive Place where
  /-- The platform learns that the loop runs. -/
  | starting
  /-- It waits for its channels. -/
  | waiting
  /-- It begins a frame by running what is queued, `ran` closures so far. -/
  | draining (ran : Nat)
  /-- The platform polls its events, after `ran` closures. -/
  | polling (ran : Nat)
  /-- It has released the claim and runs what is still queued. -/
  | leaving
  /-- It has found nothing more that is queued. -/
  | left
  /-- The run is over. -/
  | ended
  /-- A closure has failed, which ended the run. -/
  | failed

namespace Place

/-- The claim of the frame thread has been released. -/
def released : Place → Bool
  | .leaving | .left | .ended => true
  | _ => false

/-- The run is in its midst. -/
def underway : Place → Bool
  | .starting | .waiting | .draining _ | .polling _ | .leaving => true
  | _ => false

/-- The platform is at work on the frame thread, and may hand in closures of its own. -/
def callsPlatform : Place → Bool
  | .starting | .polling _ => true
  | _ => false

/-- The place after one more queued closure, if one can be run. -/
def next? (phase : Phase) : Place → Option Place
  | .waiting => if phase = .quit then none else some .waiting
  | .draining n => some (.draining (n + 1))
  | .leaving => some .leaving
  | _ => none

theorem ne_of_underway {p : Place} (h : p.underway) :
  p ≠ .failed ∧ p ≠ .left ∧ p ≠ .ended
  := by
  refine ⟨?_, ?_, ?_⟩
  · rintro rfl
    exact nomatch h
  · rintro rfl
    exact nomatch h
  · rintro rfl
    exact nomatch h

/-- The platform is at work in the midst of a run only. -/
theorem underway_of_callsPlatform {p : Place} (h : p.callsPlatform) :
  p.underway
  := by
  cases p with
  | starting | polling => rfl
  | _ => exact nomatch h

/-- Queued closures are run in the midst of a run, and it goes on. -/
theorem next?_eq_some {phase : Phase} {p p' : Place} (h : p.next? phase = some p') :
  p.underway ∧ p'.underway ∧ p'.released = p.released
  := by
  cases p with
  | waiting =>
    rw [next?] at h
    split at h
    · exact nomatch h
    · rw [← Option.some.inj h]
      exact ⟨rfl, rfl, rfl⟩
  | draining | leaving =>
    rw [← Option.some.inj h]
    exact ⟨rfl, rfl, rfl⟩
  | _ => exact nomatch h

end Place

/-- What happens in a run to the closures and the platform. -/
inductive Incident where
  /-- The platform learns that the loop runs. -/
  | started
  /-- A closure is queued. -/
  | queued (k : Ticket)
  /-- A queued closure is run, with an answer unless it fails. -/
  | ran (k : Ticket) (answer : Option Int)
  /-- A closure that the platform hands in is run at once, with an answer unless it fails. -/
  | ranAtOnce (job : Job) (answer : Option Int)
  /-- A thread that waits is told an outcome. -/
  | told (t : ThreadId) (o : Outcome)
  /-- The platform learns that the run is over. -/
  | stopped

namespace Incident

/-- Closures are run one after the other. -/
def runs (ran : List (Ticket × Option Int)) : List Incident := ran.map fun d => .ran d.1 d.2

/-- A closure fails on the frame thread, which ends the run. -/
def fails : Incident → Bool
  | .ran _ answer | .ranAtOnce _ answer => answer.isNone
  | _ => false

end Incident

/-! ### Steps -/

/-- A single step of a run, with the incidents in it. -/
inductive Step : Place → FrameLoop → List Incident → Place → FrameLoop → Prop where
  /-- A thread hands in a closure, and waits. -/
  | queues {p l l'} (t : ThreadId) (job : Job) (h : l.submit t job = (.queued, l')) :
    Step p l [.queued ⟨t, job⟩] p l'
  /-- A thread other than the frame thread hands in a closure, which runs at once.  After the run
  the frame thread is like any other. -/
  | runsElsewhere {p l t job answer l'} (ht : t ≠ l.thread ∨ p = .ended)
    (h : l.submit t job = (.ran answer, l')) :
    Step p l [] p l'
  /-- The platform hands in a closure on the frame thread, which runs at once. -/
  | runsAtOnce {p l job answer l'} (hp : p.callsPlatform)
    (h : l.submit l.thread job = (.ran answer, l')) :
    Step p l [.ranAtOnce job answer] (if answer.isSome then p else .failed) l'
  /-- A thread that waits is told an outcome. -/
  | tells {p l t o outcomes} (h : takeOutcome t l.outcomes = some (o, outcomes)) :
    Step p l [.told t o] p { l with outcomes }
  /-- Anything changes, except for the phase of the loop and the queue of closures. -/
  | changes {p l} (l' : FrameLoop) (hphase : l'.phase = l.phase) (htasks : l'.tasks = l.tasks) :
    Step p l [] p l'
  /-- The platform has learned that the loop runs. -/
  | begins {l} :
    Step .starting l [] .waiting l
  /-- The frame thread receives a request to quit. -/
  | quits {l} (hphase : l.phase ≠ .quit) (h : l.ready .quit) :
    Step .waiting l [] .waiting { l with quitRequests := l.quitRequests - 1 }.quit
  /-- The frame thread receives a settings change. -/
  | receives {l} (hphase : l.phase ≠ .quit) (h : l.ready .settings) :
    Step .waiting l [] .waiting l.receiveOne
  /-- The frame thread runs the oldest queued closure. -/
  | runs {p l p' k queue} (hp : p.next? l.phase = some p') (h : l.queue = k :: queue) :
    Step p l [.ran k (perform l.thread k.job { l with queue }).1]
      (if l.runNext.1 then p' else .failed) l.runNext.2
  /-- A frame begins. -/
  | ticks {l} (hphase : l.phase ≠ .quit) :
    Step .waiting l [] (.draining 0) l
  /-- The frame thread finds nothing more that is queued, and lets the platform poll. -/
  | polls {l n} (h : l.queue = []) :
    Step (.draining n) l [] (.polling n) (l.receiveAll.record .polled)
  /-- The frame comes to its end. -/
  | finishes {l n} :
    Step (.polling n) l [] .waiting (l.finishTick n).2
  /-- The loop has quit, and releases the claim. -/
  | releases {l} (hphase : l.phase = .quit) :
    Step .waiting l [] .leaving { l with owner := none }
  /-- The frame thread finds nothing more that is queued. -/
  | leaves {l} (h : l.queue = []) :
    Step .leaving l [] .left l
  /-- The platform learns that the run is over. -/
  | stops {l} :
    Step .left l [.stopped] .ended (l.record .stopped)

/-- The steps from one place to another, with the incidents in them. -/
inductive Steps : Place → FrameLoop → List Incident → Place → FrameLoop → Prop where
  | refl (p l) : Steps p l [] p l
  | tail {p l es p' l' es' p'' l''} (hsteps : Steps p l es p' l') (hstep : Step p' l' es' p'' l'') :
    Steps p l (es ++ es') p'' l''

/-- A run that began with `l₀` has come to the place `p` and the loop `l`, with the incidents
`es`. -/
def Runs (l₀ : FrameLoop) (es : List Incident) (p : Place) (l : FrameLoop) : Prop :=
  ∃ l₁ es', l₀.enter? = some l₁ ∧ Steps .starting l₁ es' p l ∧ es = .started :: es'

namespace Steps

variable {p p' p'' : Place} {l l' l'' : FrameLoop} {es es' : List Incident}

theorem trans (h : Steps p l es p' l') (h' : Steps p' l' es' p'' l'') :
  Steps p l (es ++ es') p'' l''
  := by
  induction h' with
  | refl => rwa [List.append_nil]
  | tail _ hstep ih =>
    rw [← List.append_assoc]
    exact ih.tail hstep

theorem single (h : Step p l es p' l') :
  Steps p l es p' l'
  := (refl p l).tail h

end Steps

variable {p : Place} {l : FrameLoop}

/-! ### Running closures from the queue -/

/-- A place from which closures are run one after the other. -/
def Serves (f : Nat → Place) (l : FrameLoop) : Prop := ∀ n, (f n).next? l.phase = some (f (n + 1))

/-- Running the first closures of the queue in turn is running one after the other. -/
theorem steps_runInTurn {f : Nat → Place} {ks : List Ticket} (hf : Serves f l)
    (ht : l.runsInline l.thread) (hks : ks <+: l.queue) (n : Nat) :
  let d := Ticket.runInTurn (l.isOwner l.thread) ks l.studio
  Steps (f n) l (Incident.runs d.1) (if Ticket.answered d.1 then f (n + d.1.length) else .failed)
    (l.afterRunning d.1 d.2)
  := by
  induction ks generalizing l n with
  | nil =>
    change Steps (f n) l [] (f n) (l.afterRunning [] l.studio)
    rw [afterRunning_nil]
    exact .refl _ _
  | cons k ks ih =>
    obtain ⟨rest, hqueue⟩ := hks
    have hstep := Step.runs (hf n) hqueue.symm
    rw [runNext_of_queue ht hqueue.symm,
      perform_eq_runInline (l := { l with queue := ks.append rest }) ht] at hstep
    change Step _ _ [.ran k (k.job.runInline (l.isOwner l.thread) l.studio).1] _ _ at hstep
    rw [Ticket.runInTurn_cons]
    generalize k.job.runInline (l.isOwner l.thread) l.studio = run at hstep
    have hrest : ks <+: (l.afterRunning [(k, run.1)] run.2).queue := by
      rw [afterRunning, ← hqueue]
      exact ⟨rest, rfl⟩
    by_cases h : run.1.isSome
    · rw [if_pos h] at hstep
      have hsteps := ih (l := l.afterRunning [(k, run.1)] run.2) hf ht hrest (n + 1)
      dsimp only at hsteps
      rw [afterRunning_append, Nat.add_assoc, Nat.add_comm 1] at hsteps
      have hanswered (ran : List (Ticket × Option Int)) :
          Ticket.answered ((k, run.1) :: ran) = Ticket.answered ran := by
        simp [Ticket.answered, h]
      dsimp only
      rw [if_pos h, hanswered]
      exact (Steps.single hstep).trans hsteps
    · have hfailed : ¬ Ticket.answered [(k, run.1)] := by simp [Ticket.answered, h]
      rw [if_neg h] at hstep
      dsimp only
      rw [if_neg h, if_neg hfailed]
      exact .single hstep

theorem steps_runFirst {f : Nat → Place} (hf : Serves f l) (ht : l.runsInline l.thread)
    (n : Nat) :
  Steps (f 0) l (Incident.runs (l.runFirst n).1)
    (if Ticket.answered (l.runFirst n).1 then f (l.runFirst n).1.length else .failed)
    (l.runFirst n).2
  := by
  have h := steps_runInTurn hf ht (l.queue.take_prefix n) 0
  dsimp only at h
  rwa [Nat.zero_add] at h

theorem serves_waiting (hphase : l.phase ≠ .quit) :
  Serves (fun _ => .waiting) l
  := fun _ => if_neg hphase

theorem serves_draining (n : Nat) (l : FrameLoop) :
  Serves (fun m => .draining (n + m)) l
  := fun _ => rfl

theorem serves_leaving (l : FrameLoop) :
  Serves (fun _ => .leaving) l
  := fun _ => rfl

/-! ### The turns of the loop -/

section

variable {ε : Type} {poll : ε → FrameLoop → ε × FrameLoop} {e : ε}

/-- What the turns of the loop do with the closures, and the steps of a run that they are. -/
structure TurnsInOrder (poll : ε → FrameLoop → ε × FrameLoop) (e : ε) (l : FrameLoop) : Prop where
  /-- Closures that come to their end have answered. -/
  returns (hqueue : ∀ k ∈ l.queue, k.job.Returns) (n : Nat) : Ticket.answered (l.runFirst n).1
  /-- A request to quit leaves the closures alone, and the loop has quit. -/
  quit (hready : l.ready .quit) : ∃ l', l.turn poll .quit e = (true, e, l')
    ∧ l'.quitRequests + 1 = l.quitRequests ∧ l'.phase = .quit ∧ l'.tasks = l.tasks
    ∧ Steps .waiting l [] .waiting l'
  /-- A settings change leaves the closures alone, and the loop goes on. -/
  settings (hready : l.ready .settings) : l.turn poll .settings e = (true, e, l.receiveOne)
    ∧ l.receiveOne.phase = l.phase ∧ l.receiveOne.tasks = l.tasks
    ∧ Steps .waiting l [] .waiting l.receiveOne
  /-- While closures are queued the oldest can be run, and the loop goes on if it answers. -/
  task {ran l'} (hqueue : l.queue ≠ []) (hrun : l.runFirst 1 = (ran, l')) :
    l.ready .task ∧ ran.length = 1 ∧ RunsFront l ran l'
      ∧ l.turn poll .task e = (Ticket.answered ran, e, l')
      ∧ l'.phase = l.phase
      ∧ Steps .waiting l (Incident.runs ran) (if Ticket.answered ran then .waiting else .failed) l'
  /-- A frame can always begin.  It runs all closures that are queued, and if they answer the
  platform polls with nothing queued.  The rest of the frame leaves the closures alone, and the loop
  goes on. -/
  tick {ran l' l''} (hrun : l.runFirst l.queue.length = (ran, l'))
    (hanswered : Ticket.answered ran) (hpolls : l'' = l'.receiveAll.record .polled) :
    RunsFront l ran l' ∧ l'.queue = [] ∧ l''.tasks = l'.tasks ∧ l.ready .tick
      ∧ l.turn poll .tick e = (true, (poll e l'').1, (poll e l'').2.finished)
      ∧ (poll e l'').2.finished.tasks = (poll e l'').2.tasks
      ∧ ∀ es, Steps (.polling ran.length) l'' es (.polling ran.length) (poll e l'').2 →
        Steps .waiting l (Incident.runs ran ++ es) .waiting (poll e l'').2.finished
  /-- If one of them fails, the frame and the run end there. -/
  tick_fails {ran l'} (hrun : l.runFirst l.queue.length = (ran, l'))
    (hfailed : ¬ Ticket.answered ran) :
    RunsFront l ran l' ∧ l.turn poll .tick e = (false, e, l')
      ∧ Steps .waiting l (Incident.runs ran) .failed l'

theorem steps_drained (hphase : l.phase ≠ .quit) (ht : l.runsInline l.thread) :
  Steps .waiting l (Incident.runs (l.runFirst l.queue.length).1)
    (if Ticket.answered (l.runFirst l.queue.length).1 then
      .draining (l.runFirst l.queue.length).1.length
    else .failed)
    (l.runFirst l.queue.length).2
  := by
  have hdrain := steps_runFirst (serves_draining 0 l) ht l.queue.length
  simp only [Nat.zero_add] at hdrain
  exact (Steps.single (.ticks hphase)).trans hdrain

theorem turnsInOrder (hphase : l.phase ≠ .quit) (ht : l.runsInline l.thread) :
  TurnsInOrder poll e l
  where
  returns := answered_runFirst
  quit hready := by
    have hrequests : l.quitRequests - 1 + 1 = l.quitRequests :=
      Nat.sub_add_cancel (of_decide_eq_true hready)
    exact ⟨_, rfl, hrequests, rfl, rfl, .single (.quits hphase hready)⟩
  settings hready :=
    ⟨rfl, undrawn_phase.receiveOne_eq (fun _ _ => rfl) l, l.tasks_receiveOne,
      .single (.receives hphase hready)⟩
  task {ran l'} hqueue hrun := by
    obtain ⟨rfl, rfl⟩ := Prod.ext_iff.1 hrun
    have hready : l.ready .task := by
      rw [ready, List.isEmpty_eq_false_iff.2 hqueue]
      rfl
    have hone : (l.runFirst 1).1.length = 1 := by
      obtain ⟨k, queue, hk⟩ := List.exists_cons_of_ne_nil hqueue
      rw [runFirst, hk, List.take_succ_cons, List.take_zero, Ticket.runInTurn_singleton]
      rfl
    have hturn : l.turn poll .task e = (l.runNext.1, e, l.runNext.2) := rfl
    rw [runNext_eq ht] at hturn
    exact ⟨hready, hone, runsFront_runFirst 1 l, hturn, rfl,
      steps_runFirst (serves_waiting hphase) ht 1⟩
  tick {ran l' l''} hrun hanswered hpolls := by
    obtain ⟨rfl, rfl⟩ := Prod.ext_iff.1 hrun
    have hempty := queue_runFirst_length hanswered
    have htasks : l''.tasks = (l.runFirst l.queue.length).2.tasks := by
      rw [hpolls]
      exact tasks_receiveAll _
    have hturn := turn_tick_of_answered poll hphase ht hanswered e
    rw [← hpolls] at hturn
    refine ⟨runsFront_runFirst _ l, hempty, htasks, rfl, hturn, tasks_finished _, ?_⟩
    intro es hes
    have hdrained := steps_drained hphase ht
    rw [if_pos hanswered] at hdrained
    have hpolled := hdrained.tail (.polls hempty)
    rw [← hpolls, List.append_nil] at hpolled
    have hfinished := (hpolled.trans hes).tail .finishes
    rwa [List.append_nil] at hfinished
  tick_fails {ran l'} hrun hfailed := by
    obtain ⟨rfl, rfl⟩ := Prod.ext_iff.1 hrun
    have hdrained := steps_drained hphase ht
    rw [if_neg hfailed] at hdrained
    exact ⟨runsFront_runFirst _ l, turn_tick_of_not_answered poll hphase ht hfailed e, hdrained⟩

end

/-! ### The end of a run -/

/-- What the loop does with the closures at the end of a run, once it has quit, and the steps of a
run that this is. -/
structure LeavesInOrder (l : FrameLoop) : Prop where
  /-- Closures that come to their end have answered. -/
  returns (hqueue : ∀ k ∈ l.queue, k.job.Returns) (n : Nat) :
    Ticket.answered ({ l with owner := none }.runFirst n).1
  /-- After the claim is released, all closures that are queued are run.  If they answer, the
  platform learns of the end when nothing is queued, and nothing comes after. -/
  leave {ran l'} (hrun : { l with owner := none }.runFirst l.queue.length = (ran, l'))
    (hanswered : Ticket.answered ran) :
    RunsFront l ran l' ∧ l'.queue = [] ∧ l'.owner = none
      ∧ l.leave = (true, l'.record .stopped)
      ∧ l.leave.2.studio.host.log.events = .stopped :: l'.studio.host.log.events
      ∧ Steps .waiting l (Incident.runs ran ++ [.stopped]) .ended l.leave.2
  /-- If one of them fails, the run ends there. -/
  leave_fails {ran l'} (hrun : { l with owner := none }.runFirst l.queue.length = (ran, l'))
    (hfailed : ¬ Ticket.answered ran) :
    RunsFront l ran l' ∧ l.leave = (false, l')
      ∧ Steps .waiting l (Incident.runs ran) .failed l'

theorem steps_released (hphase : l.phase = .quit) :
  let released : FrameLoop := { l with owner := none }
  Steps .waiting l (Incident.runs (released.runFirst l.queue.length).1)
    (if Ticket.answered (released.runFirst l.queue.length).1 then .leaving else .failed)
    (released.runFirst l.queue.length).2
  := (Steps.single (.releases hphase)).trans (steps_runFirst (serves_leaving _) rfl l.queue.length)

theorem leavesInOrder (hphase : l.phase = .quit) :
  LeavesInOrder l
  where
  returns hqueue := answered_runFirst (l := { l with owner := none }) hqueue
  leave {ran l'} hrun hanswered := by
    obtain ⟨rfl, rfl⟩ := Prod.ext_iff.1 hrun
    have hempty := queue_runFirst_length (l := { l with owner := none }) hanswered
    have hleave := leave_of_answered hanswered
    obtain ⟨hqueue, houtcomes⟩ := runsFront_runFirst l.queue.length { l with owner := none }
    have hreleased := steps_released hphase
    dsimp only at hreleased
    rw [if_pos hanswered] at hreleased
    have hstopped := (hreleased.tail (.leaves hempty)).tail .stops
    rw [List.append_nil] at hstopped
    rw [hleave]
    exact ⟨⟨hqueue, houtcomes⟩, hempty, rfl, rfl, rfl, hstopped⟩
  leave_fails {ran l'} hrun hfailed := by
    obtain ⟨rfl, rfl⟩ := Prod.ext_iff.1 hrun
    obtain ⟨hqueue, houtcomes⟩ := runsFront_runFirst l.queue.length { l with owner := none }
    have hreleased := steps_released hphase
    dsimp only at hreleased
    rw [if_neg hfailed] at hreleased
    exact ⟨⟨hqueue, houtcomes⟩, leave_of_not_answered hfailed, hreleased⟩

/-! ### Coming to the end -/

/-- The run can come to its end in steps that run all closures that are queued, in order, and no
other. -/
def EndsInOrder (p : Place) (l : FrameLoop) : Prop :=
  ∃ ran l', ran.map Prod.fst = l.queue
    ∧ Steps p l (Incident.runs ran ++ [.stopped]) .ended l'

namespace EndsInOrder

variable {p' : Place} {l' : FrameLoop}

/-- A step without incidents may come first. -/
theorem of_steps (hsteps : Steps p l [] p' l') (hqueue : l'.queue = l.queue)
    (h : EndsInOrder p' l') :
  EndsInOrder p l
  := by
  obtain ⟨ran, l'', hran, hends⟩ := h
  exact ⟨ran, l'', hran.trans hqueue, hsteps.trans hends⟩

theorem of_quit (hphase : l.phase = .quit) (hqueue : ∀ k ∈ l.queue, k.job.Returns) :
  EndsInOrder .waiting l
  := by
  let released : FrameLoop := { l with owner := none }
  have hanswered := answered_runFirst (l := released) hqueue l.queue.length
  obtain ⟨-, -, -, -, -, hsteps⟩ := (leavesInOrder hphase).leave rfl hanswered
  have hall := runFirst_all hanswered
  rw [List.take_length] at hall
  exact ⟨_, _, hall, hsteps⟩

theorem of_waiting (hqueue : ∀ k ∈ l.queue, k.job.Returns) :
  EndsInOrder .waiting l
  := by
  by_cases hphase : l.phase = .quit
  · exact of_quit hphase hqueue
  · -- a request to quit arrives
    have hrequest : Step .waiting l [] .waiting { l with quitRequests := 1 } := .changes _ rfl rfl
    have hquits := (Steps.single hrequest).tail (.quits hphase rfl)
    exact (of_quit (l := ({ l with quitRequests := 0 }).quit) rfl hqueue).of_steps hquits rfl

theorem of_polling {n : Nat} (hqueue : ∀ k ∈ l.queue, k.job.Returns) :
  EndsInOrder (.polling n) l
  := by
  have hkept : l.finished.queue = l.queue := congrArg TaskQueue.queue l.tasks_finished
  exact (of_waiting (hkept ▸ hqueue)).of_steps (.single .finishes) hkept

/-- Closures may be run first, until nothing is queued. -/
theorem of_runFirst (hanswered : Ticket.answered (l.runFirst l.queue.length).1)
    (hsteps : Steps p l (Incident.runs (l.runFirst l.queue.length).1) p'
      (l.runFirst l.queue.length).2)
    (h : EndsInOrder p' (l.runFirst l.queue.length).2) :
  EndsInOrder p l
  := by
  obtain ⟨ran, l', hran, hends⟩ := h
  have hall := runFirst_all hanswered
  rw [List.take_length] at hall
  rw [queue_runFirst_length hanswered] at hran
  obtain rfl : ran = [] := List.map_eq_nil_iff.1 hran
  exact ⟨_, l', hall, hsteps.trans hends⟩

end EndsInOrder

/-- Unless it has failed, a run can come to its end from any place. -/
theorem endsInOrder (hfailed : p ≠ .failed) (hended : p ≠ .ended)
    (hleft : p = .left → l.queue = []) (ht : l.runsInline l.thread)
    (hqueue : ∀ k ∈ l.queue, k.job.Returns) :
  EndsInOrder p l
  := by
  have hanswered := answered_runFirst hqueue l.queue.length
  have hempty := queue_runFirst_length hanswered
  cases p with
  | starting => exact (EndsInOrder.of_waiting hqueue).of_steps (.single .begins) rfl
  | waiting => exact .of_waiting hqueue
  | draining n =>
    have hdrain := steps_runFirst (serves_draining n l) ht l.queue.length
    rw [if_pos hanswered] at hdrain
    have hpolls := Steps.single (.polls (n := n + (l.runFirst l.queue.length).1.length) hempty)
    have hkept : ((l.runFirst l.queue.length).2.receiveAll.record .polled).queue
        = (l.runFirst l.queue.length).2.queue :=
      congrArg TaskQueue.queue (l.runFirst l.queue.length).2.tasks_receiveAll
    apply EndsInOrder.of_runFirst hanswered hdrain
    apply EndsInOrder.of_steps hpolls hkept
    apply EndsInOrder.of_polling
    rw [hkept, hempty]
    exact fun k hk => absurd hk List.not_mem_nil
  | polling n => exact .of_polling hqueue
  | leaving =>
    have hdrain := steps_runFirst (serves_leaving l) ht l.queue.length
    rw [if_pos hanswered] at hdrain
    apply EndsInOrder.of_runFirst hanswered hdrain
    exact ⟨[], _, hempty.symm, (Steps.single (.leaves hempty)).tail .stops⟩
  | left => exact ⟨[], _, (hleft rfl).symm, .single .stops⟩
  | ended => exact absurd rfl hended
  | failed => exact absurd rfl hfailed

end FrameCache.FrameLoop
