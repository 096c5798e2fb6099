import FrameCache.Proofs.Concerns
import FrameCache.Proofs.Removals
import FrameCache.Proofs.SweepHistory

/-!
# Sweeps that were put off

The `decisions` of a run are those that its requests ask for, and the schedule of a studio recounts
them.  So a repaint that came too early to sweep is made up for: the next sweep is full and lists
its canvases.  An object whose deadline had passed then, and that no request has concerned since,
is given back by that sweep, unless its canvas was forgotten in the meantime, which gives back as
much.
-/

namespace FrameCache

namespace Studio

open SweepSchedule (Tick Decided History)

variable {s : Studio} {o : ObjectId}

/-! ### The decisions of a run -/

/-- What the schedule has to decide about to serve a request. -/
def tick? (s : Studio) : Request → Option Tick
  | .sweep repainted refreshed => some ⟨s.now, repainted, refreshed⟩
  | .decide now repainted refreshed => some ⟨now, repainted, refreshed⟩
  | _ => none

/-- The decision that a request asks for. -/
def decided (s : Studio) (r : Request) : Option Decided :=
  (s.tick? r).map fun t => ⟨t, (s.inventory.schedule.tick t).1⟩

/-- The decisions that requests ask for, the latest first.  Sweeps are as deep as decided, see
`depth_sweep`. -/
def decisions (s : Studio) : List (Instant × Request) → History
  | [] => []
  | (t, r) :: rs => ((s.atTime t).serve r).decisions rs ++ ((s.atTime t).decided r).toList

theorem decisions_append (s : Studio) (rs rs' : List (Instant × Request)) :
  s.decisions (rs ++ rs') = (s.serveAll rs).decisions rs' ++ s.decisions rs
  := by
  induction rs generalizing s with
  | nil =>
    rw [decisions, List.append_nil]
    rfl
  | cons r rs ih =>
    rw [List.cons_append, decisions, ih, List.append_assoc]
    rfl

/-- The schedule that an act sets. -/
def Act.schedule? : Act → Option SweepSchedule
  | .plan schedule => some schedule
  | _ => none

/-- Only planning changes the schedule. -/
theorem schedule_run (s : Studio) (a : Act) :
  (a.run s).inventory.schedule = a.schedule?.getD s.inventory.schedule
  := by
  cases a with
  | plan schedule => rfl
  | mount o m =>
    rw [Act.run, update, Inventory.mount_eq]
    rfl
  | touch o =>
    rw [Act.run, query, Inventory.touch_eq]
    rfl
  | dismantle o expiredAt =>
    rw [Act.run]
    cases h : s.lapsedRenderer o expiredAt with
    | none =>
      rw [dismantle_of_none h]
      rfl
    | some r =>
      rw [dismantle_of_some h]
      rfl
  | texture o =>
    rw [Act.run]
    cases h : s.inventory.textures.peek o s.now with
    | some t =>
      rw [texture_of_live h]
      rfl
    | none =>
      rw [texture_of_not_live h]
      rfl
  | dropTexture o =>
    rw [Act.run, dropTexture_eq]
    rfl
  | call e => rfl
  | keepValues texts icons => rfl
  | present canvases => rfl
  | canvasOf o => rfl
  | unmount o cause accept => rfl
  | findRenderer o => rfl
  | create o => rfl
  | setTheme o t => rfl
  | themeOf o => rfl

theorem Course.schedule_eq {P : Studio → Act → Prop} {s s' : Studio} (h : Course P s s')
    (hP : ∀ s schedule, ¬ P s (.plan schedule)) :
  s'.inventory.schedule = s.inventory.schedule
  := by
  apply h.invariant (I := fun s' => s'.inventory.schedule = s.inventory.schedule) _ rfl
  intro s' a hp _ hs
  rw [schedule_run, hs]
  cases a with
  | plan schedule => exact absurd hp (hP s' schedule)
  | _ => rfl

theorem schedule_sweepObjects (s : Studio) (now : Instant) (canvases : List CanvasId) :
  (s.sweepObjects now canvases).2.inventory.schedule = s.inventory.schedule
  := by
  obtain ⟨_, _, hremoves, -⟩ := s.removes_sweepObjects now canvases
  exact hremoves.schedule

/-- The schedule changes with the decisions only. -/
theorem schedule_serve (s : Studio) (r : Request) :
  (s.serve r).inventory.schedule
    = ((s.tick? r).map fun t => (s.inventory.schedule.tick t).2).getD s.inventory.schedule
  := by
  cases r with
  | measured k => rfl
  | setMeasured k v => rfl
  | icon k => rfl
  | setIcon k v => rfl
  | forgetTheme => rfl
  | decide now repainted refreshed => rfl
  | register c =>
    rw [serve_register]
    rfl
  | canvasOf o => rfl
  | mount o m => exact schedule_run s (.mount o m)
  | touch o => exact schedule_run s (.touch o)
  | renderer o => exact (course_renderer s o).schedule_eq fun _ _ => id
  | findRenderer o => rfl
  | setTheme o t => rfl
  | themeOf o => rfl
  | texture o => exact schedule_run s (.texture o)
  | dropTexture o => exact schedule_run s (.dropTexture o)
  | forgetCanvas c => exact (course_forgetCanvas s c).schedule_eq fun _ _ => id
  | paint c nodes => exact (course_paintAll s c nodes).schedule_eq fun _ _ => id
  | walk nodes => exact (course_keepAlive s nodes).schedule_eq fun _ _ => id
  | sweep repainted refreshed =>
    rw [serve, snd_sweep]
    dsimp only
    split
    · rfl
    · rfl
    · rw [schedule_sweepObjects]
      rfl

/-- A schedule goes on recounting the decisions of its studio. -/
theorem recounts_serve {h : History} (hs : s.inventory.schedule.Recounts h) (r : Request) :
  (s.serve r).inventory.schedule.Recounts ((s.decided r).toList ++ h)
  := by
  rw [schedule_serve, decided]
  cases s.tick? r with
  | none => exact hs
  | some t => exact (hs.tick t).2

theorem recounts_decisions {h : History} (hs : s.inventory.schedule.Recounts h)
    (rs : List (Instant × Request)) :
  (s.serveAll rs).inventory.schedule.Recounts (s.decisions rs ++ h)
  := by
  induction rs generalizing s h with
  | nil => exact hs
  | cons r rs ih =>
    obtain ⟨t, r⟩ := r
    rw [decisions, List.append_assoc]
    apply ih
    apply recounts_serve (s := s.atTime t) hs r

theorem recounts_ofConfig_decisions (layouts : Layouts) (c : Config) (policy : Policy)
    (rs : List (Instant × Request)) :
  ((ofConfig layouts c policy).serveAll rs).inventory.schedule.Recounts
    ((ofConfig layouts c policy).decisions rs)
  := by
  rw [← List.append_nil ((ofConfig layouts c policy).decisions rs)]
  apply recounts_decisions
  apply SweepSchedule.recounts_ofConfig

/-- What a sweep does is decided by the decisions before it. -/
theorem decision_eq_expected {h : History} (hs : s.inventory.schedule.Recounts h)
    (repainted : Bool) (refreshed : List CanvasId) :
  s.decision repainted refreshed
    = h.expected s.inventory.schedule.gap s.inventory.schedule.idleGap
      ⟨s.now, repainted, refreshed⟩
  := (hs.tick ⟨s.now, repainted, refreshed⟩).1

/-- A sweep keeps what is mounted on a canvas that is shown and was listed neither by it nor by any
sweep since the one before. -/
theorem mounting?_sweep_of_not_listed {h : History} (hs : s.inventory.schedule.Recounts h)
    (repainted : Bool) {refreshed : List CanvasId} {m : Entry Mounting}
    (hm : s.mounting? o = some m) (hregistered : s.inventory.isRegistered m.value.canvas)
    (hsince : ∀ d ∈ h.sinceSweep, m.value.canvas ∉ d.refreshed)
    (hrefreshed : m.value.canvas ∉ refreshed) :
  (s.sweep repainted refreshed).2.mounting? o = some m
  := by
  have hnot : m.value.canvas ∉ (s.decision repainted refreshed).canvases := by
    intro hmem
    rw [decision_eq_expected hs] at hmem
    rcases History.mem_canvases_expected hmem with hmem | ⟨d, hd, hmem⟩
    · apply hrefreshed hmem
    · apply hsince d hd hmem
  change ((s.sweep repainted refreshed).2.belongings o).mounting = some m
  rw [belongings_sweep]
  split
  · rw [Belongings.mounting_sweep, show (s.belongings o).mounting = some m from hm,
      Option.filter_some, inScope, decide_eq_false hnot, hregistered]
    rfl
  · apply hm

/-! ### An object that waits for a sweep -/

/-- Unless the caches are swept, no more befalls an object than that the canvas that it is mounted
on is forgotten. -/
theorem belongings_serve_of_not_swept {r : Request} (hr : ¬ r.Concerns o)
    (hs : ∀ d ∈ s.decided r, d.swept = false) :
  (s.serve r).belongings o = s.belongings o
    ∨ ∃ m, s.mounting? o = some m
      ∧ (s.serve r).belongings o = (s.belongings o).forget o m.value.canvas
  := by
  rw [belongings_serve r hr]
  cases r with
  | sweep repainted refreshed =>
    have hskipped : decide ((s.decision repainted refreshed).depth ≠ .skipped) = false := hs _ rfl
    apply Or.inl
    apply if_neg
    intro hfull
    rw [hfull] at hskipped
    cases hskipped
  | forgetCanvas c =>
    by_cases hon : ∃ m, s.mounting? o = some m ∧ m.value.canvas = c
    · obtain ⟨m, hm, rfl⟩ := hon
      apply Or.inr
      use m, hm
      rfl
    · apply Or.inl
      apply Belongings.forget_of_not_mounted
      intro m hm hc
      apply hon ⟨m, hm, hc⟩
  | _ => exact .inl rfl

/-- While no sweep takes place, no more befalls an object that no request concerns. -/
theorem belongings_serveAll_of_not_swept {rs : List (Instant × Request)}
    (hr : ∀ x ∈ rs, ¬ x.2.Concerns o) (hs : ∀ d ∈ s.decisions rs, d.swept = false) :
  (s.serveAll rs).belongings o = s.belongings o
    ∨ ∃ m, s.mounting? o = some m
      ∧ (s.serveAll rs).belongings o = (s.belongings o).forget o m.value.canvas
  := by
  induction rs generalizing s with
  | nil => exact .inl rfl
  | cons x rs ih =>
    obtain ⟨t, r⟩ := x
    have hfirst := belongings_serve_of_not_swept (s := s.atTime t) (hr _ List.mem_cons_self)
      (fun d hd => hs d (List.mem_append_right _ (Option.mem_toList.2 hd)))
    have hrest := ih (s := (s.atTime t).serve r)
      (fun x hx => hr x (List.mem_cons_of_mem _ hx)) (fun d hd => hs d (List.mem_append_left _ hd))
    rcases hfirst with hsame | ⟨m, hm, hforget⟩
    · change ((s.atTime t).serve r).belongings o = s.belongings o at hsame
      have hmounting := congrArg Belongings.mounting hsame
      rcases hrest with hrest | ⟨m, hm, hforget⟩
      · apply Or.inl
        apply hrest.trans hsame
      · apply Or.inr
        use m, hmounting.symm.trans hm
        rw [← hsame]
        apply hforget
    · rcases hrest with hrest | ⟨m', hm', -⟩
      · apply Or.inr
        use m, hm
        apply hrest.trans hforget
      · -- Once forgotten the object is not mounted, so no other canvas can be forgotten with it.
        have hmounting := (congrArg Belongings.mounting hforget).symm.trans hm'
        rw [Belongings.mounting_forget_of_mounted hm] at hmounting
        cases hmounting

/-! ### A sweep that makes up for others -/

section

variable {begun : Studio} {skipped : List (Instant × Request)} {t₀ t₁ : Instant}
  {canvases refreshed : List CanvasId} {repainted : Bool}

/-- The first sweep that takes place after a repaint lists its canvases, whatever it is asked
for. -/
theorem decision_of_deferred {h : History} (hb : begun.inventory.schedule.Recounts h)
    (hs : s = (begun.serveAll skipped).atTime t₁)
    (hfirst : (skipped ++ [(t₁, Request.sweep repainted refreshed)]).head?
      = some (t₀, .sweep true canvases))
    (hskipped : ∀ d ∈ begun.decisions skipped, d.swept = false)
    (hswept : (s.decision repainted refreshed).depth ≠ .skipped) :
  (s.decision repainted refreshed).depth = .full
    ∧ ∀ c ∈ canvases, c ∈ (s.decision repainted refreshed).canvases
  := by
  have hrecounts : s.inventory.schedule.Recounts (begun.decisions skipped ++ h) := by
    rw [hs]
    apply recounts_decisions hb skipped
  rw [decision_eq_expected hrecounts] at hswept ⊢
  cases skipped with
  | nil =>
    cases hfirst
    apply History.expected_of_repainted hswept rfl
  | cons x rs =>
    cases hfirst
    let early : Decided := ⟨⟨t₀, true, canvases⟩, (begun.atTime t₀).decision true canvases⟩
    have hmem : early ∈ begun.decisions ((t₀, .sweep true canvases) :: rs) :=
      List.mem_append_right _ List.mem_cons_self
    apply History.expected_of_waiting hswept (d := early) _ rfl
    rw [History.sinceSweep_append hskipped]
    apply List.mem_append_left _ hmem

/-- A repaint that came too early to sweep is made up for.  Let an object be mounted on a canvas
that was repainted at `t₀` when its deadline had passed, and let no request concern it from then
on.  Then the first sweep that takes place, at `t₁`, unmounts it, whatever that sweep is asked
for, and deletes its texture if it is not a widget; what belongs to a widget is given back if its
renderer has lapsed.  Objects on canvases that are shown and were listed by no sweep since the one
before stay mounted.  A decision that is asked for without a sweep counts as a sweep here. -/
theorem sweep_makes_up (layouts : Layouts) (c : Config) (policy : Policy)
    {earlier : List (Instant × Request)}
    (hbegun : begun = (ofConfig layouts c policy).serveAll earlier)
    (hs : s = (begun.serveAll skipped).atTime t₁)
    (hfirst : (skipped ++ [(t₁, Request.sweep repainted refreshed)]).head?
      = some (t₀, .sweep true canvases))
    (hskipped : ∀ d ∈ begun.decisions skipped, d.swept = false)
    (hswept : (s.sweep repainted refreshed).1.depth ≠ .skipped)
    {m : Entry Mounting} (hm : begun.mounting? o = some m) (hc : m.value.canvas ∈ canvases)
    (hearly : m.deadline ≤ t₀) (htime : t₀ ≤ t₁) (ho : ∀ x ∈ skipped, ¬ x.2.Concerns o) :
  let after := (s.sweep repainted refreshed).2
  let before := begun.belongings o
  let deleted := (before.texture.map fun t => Event.textureDeleted o t.value).toList
  after.mounting? o = none
    ∧ (m.value.kind = .plain → after.texture? o = none ∧ ∀ t, before.texture = some t →
      ∃ calls, after.host.log.about o = calls ++ .textureDeleted o t.value :: before.calls)
    ∧ (m.value.kind = .widget → ∀ r, before.renderer = some r → r.deadline ≤ t₁ →
      after.belongings o = ⟨none, none, none, none,
        deleted ++ .rendererReleased o :: .rendererDestroyed o r.value :: before.calls⟩)
    ∧ ∀ o' m', s.mounting? o' = some m' → s.inventory.isRegistered m'.value.canvas →
      (∀ d ∈ ((ofConfig layouts c policy).decisions (earlier ++ skipped)).sinceSweep,
        m'.value.canvas ∉ d.refreshed) →
      m'.value.canvas ∉ refreshed → after.mounting? o' = some m'
  := by
  intro after before deleted
  have hb : begun.inventory.schedule.Recounts ((ofConfig layouts c policy).decisions earlier) := by
    rw [hbegun]
    apply recounts_ofConfig_decisions
  rw [depth_sweep] at hswept
  obtain ⟨hfull, hlists⟩ := decision_of_deferred hb hs hfirst hskipped hswept
  let scope (c : CanvasId) : Bool := s.inScope c (s.decision repainted refreshed).canvases
  have hafter : ∀ o', after.belongings o' = (s.belongings o').sweep o' t₁ scope := by
    intro o'
    rw [belongings_sweep, if_pos hfull, show s.now = t₁ by rw [hs]; rfl]
  have hscope : scope m.value.canvas = true := by
    change s.inScope m.value.canvas (s.decision repainted refreshed).canvases = true
    rw [inScope, decide_eq_true (hlists _ hc), Bool.true_or]
  have hle : m.deadline ≤ t₁ := Nat.le_trans hearly htime
  have hwait : s.belongings o = before ∨ s.belongings o = before.forget o m.value.canvas := by
    rw [hs]
    rcases belongings_serveAll_of_not_swept ho hskipped with hwait | ⟨m', hm', hwait⟩
    · apply Or.inl hwait
    · cases hm.symm.trans hm'
      apply Or.inr hwait
  have hgone (hr : m.value.kind = .widget → ∀ r, before.renderer = some r → r.deadline ≤ t₁) :
      after.belongings o = before.sweep o t₁ scope := by
    rw [hafter]
    rcases hwait with hwait | hwait
    · rw [hwait]
    · rw [hwait]
      apply Belongings.sweep_forget hm hscope hle hr
  refine ⟨?_, ?_, ?_, ?_⟩
  · change (after.belongings o).mounting = none
    rw [hafter, Belongings.mounting_sweep_of_lapsed hm hscope hle hwait]
  · intro hk
    have hplain := Belongings.sweep_of_plain (o := o) (b := before) hm hscope hle hk
    have hlapsed (hw : m.value.kind = .widget) :
        ∀ r, before.renderer = some r → r.deadline ≤ t₁ := by
      rw [hk] at hw
      cases hw
    rw [← hgone hlapsed] at hplain
    exact hplain
  · intro hk r hr hlapsed
    rw [hgone, Belongings.sweep_of_widget hm hscope hle hk hr hlapsed]
    intro _ r' hr'
    cases hr.symm.trans hr'
    apply hlapsed
  · intro o' m' hm' hregistered hsince hrefreshed
    apply mounting?_sweep_of_not_listed _ repainted hm' hregistered hsince hrefreshed
    rw [hs, hbegun, decisions_append]
    apply recounts_decisions
    apply recounts_ofConfig_decisions

end

/-- A widget and another object on one canvas, an object on a second one, and a light sweep. -/
def beforeRepaint : List (Instant × Request) :=
  [(.ofNanos 0, .register ⟨1⟩), (.ofNanos 0, .register ⟨2⟩),
    (.ofNanos 0, .mount ⟨1⟩ ⟨⟨1⟩, .widget⟩), (.ofNanos 0, .renderer ⟨1⟩),
    (.ofNanos 0, .texture ⟨1⟩), (.ofNanos 0, .setTheme ⟨1⟩ ⟨"dark"⟩),
    (.ofNanos 0, .mount ⟨2⟩ ⟨⟨1⟩, .plain⟩), (.ofNanos 0, .texture ⟨2⟩),
    (.ofNanos 0, .mount ⟨3⟩ ⟨⟨2⟩, .plain⟩), (.ofNanos 60000000000, .sweep false [])]

/-- A repaint of the first canvas that comes too early to sweep, and what follows. -/
def afterRepaint : List (Instant × Request) :=
  [(.ofNanos 61000000000, .sweep true [⟨1⟩]), (.ofNanos 62000000000, .touch ⟨4⟩),
    (.ofNanos 63000000000, .sweep false [⟨5⟩])]

theorem sweep_makes_up_afterRepaint :
  let begun := (ofConfig .spread .standard .prompt).serveAll beforeRepaint
  let s := (begun.serveAll afterRepaint).atTime (.ofNanos 75000000000)
  let after := (s.sweep false []).2
  after.mounting? ⟨1⟩ = none ∧ after.renderer? ⟨1⟩ = none ∧ after.texture? ⟨1⟩ = none
    ∧ after.theme? ⟨1⟩ = none
    ∧ after.mounting? ⟨2⟩ = none ∧ after.texture? ⟨2⟩ = none
    ∧ (∃ t, begun.texture? ⟨2⟩ = some t ∧ .textureDeleted ⟨2⟩ t.value ∈ after.host.log.about ⟨2⟩)
    ∧ (after.mounting? ⟨3⟩).isSome
  := by
  intro begun s after
  have hwidget : begun.mounting? ⟨1⟩ = some ⟨⟨⟨1⟩, .widget⟩, .ofNanos 60000000000⟩ := by
    decide +kernel
  have hplain : begun.mounting? ⟨2⟩ = some ⟨⟨⟨1⟩, .plain⟩, .ofNanos 60000000000⟩ := by
    decide +kernel
  have hother : s.mounting? ⟨3⟩ = some ⟨⟨⟨2⟩, .plain⟩, .ofNanos 60000000000⟩ := by decide +kernel
  have hrenderer : begun.renderer? ⟨1⟩ = some ⟨⟨1⟩, .ofNanos 60000000000⟩ := by decide +kernel
  have htexture : (begun.texture? ⟨2⟩).isSome := by decide +kernel
  have hskipped : ∀ d ∈ begun.decisions afterRepaint, d.swept = false := by decide +kernel
  have hswept : (s.sweep false []).1.depth ≠ .skipped := by decide +kernel
  have hlisted : (⟨1⟩ : CanvasId) ∈ [(⟨1⟩ : CanvasId)] := List.mem_singleton_self _
  have hbegun : begun = (ofConfig .spread .standard .prompt).serveAll beforeRepaint := rfl
  have hs : s = (begun.serveAll afterRepaint).atTime (.ofNanos 75000000000) := rfl
  have hfirst : (afterRepaint ++ [(Instant.ofNanos 75000000000, Request.sweep false [])]).head?
      = some (.ofNanos 61000000000, .sweep true [⟨1⟩]) := rfl
  have hshown : s.inventory.isRegistered ⟨2⟩ = true := by decide +kernel
  have hlater : ∀ d ∈ ((ofConfig .spread .standard .prompt).decisions
      (beforeRepaint ++ afterRepaint)).sinceSweep, (⟨2⟩ : CanvasId) ∉ d.refreshed := by
    decide +kernel
  clear_value s begun
  obtain ⟨hunmounted, -, hreleased, hkept⟩ := sweep_makes_up .spread .standard .prompt hbegun hs
    hfirst hskipped hswept hwidget hlisted (by decide +kernel) (by decide +kernel)
    (by simp [afterRepaint, Request.Concerns])
  obtain ⟨hunmounted', hdropped, -, -⟩ := sweep_makes_up .spread .standard .prompt hbegun hs
    hfirst hskipped hswept hplain hlisted (by decide +kernel) (by decide +kernel)
    (by simp [afterRepaint, Request.Concerns])
  have hbelongings := hreleased rfl _ hrenderer (by decide +kernel)
  obtain ⟨hnone, hdeleted⟩ := hdropped rfl
  obtain ⟨t, ht⟩ := Option.isSome_iff_exists.1 htexture
  obtain ⟨calls, hcalls⟩ := hdeleted t ht
  refine ⟨hunmounted, congrArg Belongings.renderer hbelongings,
    congrArg Belongings.texture hbelongings, congrArg Belongings.theme hbelongings, hunmounted',
    hnone, ⟨t, ht, ?_⟩, ?_⟩
  · rw [hcalls]
    apply List.mem_append_right _ List.mem_cons_self
  · rw [hkept ⟨3⟩ _ hother hshown hlater (by decide)]
    rfl

end Studio

end FrameCache
