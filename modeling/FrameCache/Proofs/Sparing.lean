import FrameCache.Proofs.Keeping
import FrameCache.Proofs.Order

/-!
# What sweeps spare

A window that is left alone in a frame is not due for a walk, so the objects that were on its
canvas when it was last painted or walked are kept until after the sweep of the frame; and so are
the objects of the windows that the frame paints or walks.  Hence a sweep takes nothing that an
open window still shows, unless drawing took too long.
-/

namespace FrameCache

namespace FrameLoop

variable {l l' : FrameLoop} {config : Config} {kind : ObjectId → ObjectKind} {c : CanvasId}
  {o : ObjectId}

/-! ### Objects that stay -/

/-- The object is on the canvas. -/
def Has (l : FrameLoop) (c : CanvasId) (o : ObjectId) : Prop :=
  ∃ n ∈ (l.canvas c).walk, n.1.object = o

instance (l : FrameLoop) (c : CanvasId) (o : ObjectId) : Decidable (l.Has c o) :=
  inferInstanceAs (Decidable (∃ n ∈ (l.canvas c).walk, n.1.object = o))

/-- The next frame, with the platform doing `deeds`, paints or walks the canvas. -/
def DrawsNext (l : FrameLoop) (deeds : List Deed) (c : CanvasId) : Prop :=
  l.phase ≠ .quit ∧ ∃ d ∈ (l.polled deeds).drawn.1, d.1 ≠ .left ∧ d.2.canvas = c

instance (l : FrameLoop) (deeds : List Deed) (c : CanvasId) : Decidable (l.DrawsNext deeds c) :=
  inferInstanceAs (Decidable (l.phase ≠ .quit
    ∧ ∃ d ∈ (l.polled deeds).drawn.1, d.1 ≠ .left ∧ d.2.canvas = c))

/-- After some frame of the moves that painted or walked the canvas, and after every later move,
the object was on the canvas. -/
inductive Stays (l : FrameLoop) (c : CanvasId) (o : ObjectId) : List Move → Prop where
  | drawn (moves : List Move) (deeds : List Deed) (hd : (l.play moves).DrawsNext deeds c)
    (ho : (l.play (moves ++ [.frame deeds])).Has c o) : Stays l c o (moves ++ [.frame deeds])
  | later (moves : List Move) (m : Move) (h : Stays l c o moves)
    (ho : (l.play (moves ++ [m])).Has c o) : Stays l c o (moves ++ [m])

/-! ### When windows were drawn -/

/-- Every window of `l'` was drawn last when a window of `l` on the same canvas was, or not at
all. -/
def Recalls (l l' : FrameLoop) : Prop :=
  ∀ w' ∈ l'.windows, ∀ t, w'.walkedAt = some t →
    ∃ w ∈ l.windows, w.canvas = w'.canvas ∧ w.walkedAt = some t

theorem Recalls.of_windows (h : l'.windows = l.windows) :
  Recalls l l'
  := by
  intro w hw t ht
  rw [h] at hw
  use w, hw, rfl

/-- Windows are drawn at readings of the clock. -/
def Dated (l : FrameLoop) : Prop :=
  ∀ w ∈ l.windows, ∀ t, w.walkedAt = some t → t ∈ l.studio.host.log.readings

/-- The object is kept from the moment on at which the windows of the canvas were last drawn. -/
def Keeps (config : Config) (c : CanvasId) (o : ObjectId) (l : FrameLoop) : Prop :=
  ∀ w ∈ l.windows, w.canvas = c → ∀ t, w.walkedAt = some t → l.studio.KeptFrom config t o

theorem Dated.recalls (h : l.Dated) (hr : Recalls l l')
    (hx : Log.Extends l.studio.host.log l'.studio.host.log) :
  l'.Dated
  := by
  intro w' hw' t ht
  obtain ⟨w, hw, -, ht⟩ := hr w' hw' t ht
  apply hx.mem_readings
  apply h w hw t ht

theorem Keeps.recalls (h : l.Keeps config c o) (hr : Recalls l l')
    (hk : ∀ w ∈ l.windows, ∀ t, w.walkedAt = some t → l.studio.KeptFrom config t o →
      l'.studio.KeptFrom config t o) :
  l'.Keeps config c o
  := by
  intro w' hw' hc t ht
  obtain ⟨w, hw, hcanvas, ht⟩ := hr w' hw' t ht
  apply hk w hw t ht
  apply h w hw (hcanvas.trans hc) t ht

theorem Keeps.idle (h : l.Keeps config c o) (hr : Recalls l l')
    (hi : Studio.Idles l.studio l'.studio) :
  l'.Keeps config c o
  := by
  apply h.recalls hr
  intro _ _ t _ hk m hm
  apply hk m
  rw [← hm, Studio.mounting?, Studio.mounting?, hi.mountings]

theorem Keeps.course {P : Studio → Studio.Act → Prop} (h : l.Keeps config c o) (hd : l.Dated)
    (hr : Recalls l l') (hreg : l.studio.Regular config) (hf : l.studio.host.Fresh)
    (hc : Studio.Course P l.studio l'.studio) (hs : l'.studio.host.log.Steady) :
  l'.Keeps config c o
  := by
  apply h.recalls hr
  intro w hw t ht hk
  apply hk.course ⟨hreg, hf, hd w hw t ht⟩ hc hs

/-! ### Moves that draw nothing -/

theorem windows_restyle (l : FrameLoop) :
  l.restyle.windows = l.windows
  := by
  rw [restyle]
  apply List.foldlRecOn (motive := fun l' : FrameLoop => l'.windows = l.windows)
  · rfl
  · intro l' h w _
    apply h

theorem windows_polled (l : FrameLoop) (deeds : List Deed) :
  (l.polled deeds).windows = l.windows
  := by
  rw [polled]
  apply List.foldlRecOn (motive := fun l' : FrameLoop => l'.windows = l.windows)
  · rw [record, receiveAll]
    split
    · rfl
    · split
      · rfl
      · apply windows_restyle
  · intro l' h d _
    rw [← h]
    cases d <;> rfl

theorem recalls_animated (l : FrameLoop) :
  Recalls l l.animated
  := by
  intro w' hw' t ht
  have hm : (w'.canvas, w'.walkedAt) ∈ l.windows.map fun w => (w.canvas, w.walkedAt) := by
    rw [← windows_markClosing]
    apply List.mem_map_of_mem (f := fun w : Window => (w.canvas, w.walkedAt)) hw'
  obtain ⟨w, hw, heq⟩ := List.mem_map.1 hm
  obtain ⟨hcanvas, hwalked⟩ := Prod.mk.inj heq
  use w, hw, hcanvas
  rw [hwalked, ht]

theorem recalls_forgetWalk (l : FrameLoop) (c : CanvasId) :
  Recalls l (l.forgetWalk c)
  := by
  have hgo : ∀ ws, ∀ w' ∈ forgetWalk.go c ws, w'.walkedAt = none ∨ w' ∈ ws := by
    intro ws
    induction ws with
    | nil =>
      intro w' hw'
      apply Or.inr hw'
    | cons w ws ih =>
      intro w' hw'
      rw [forgetWalk.go] at hw'
      split at hw'
      · rcases List.mem_cons.1 hw' with rfl | hw'
        · apply Or.inl rfl
        · apply Or.inr (List.mem_cons_of_mem _ hw')
      · rcases List.mem_cons.1 hw' with rfl | hw'
        · apply Or.inr List.mem_cons_self
        · apply (ih w' hw').imp_right (List.mem_cons_of_mem _)
  intro w' hw' t ht
  rcases hgo l.windows w' hw' with hnone | hw
  · rw [hnone] at ht
    cases ht
  · use w', hw, rfl

/-- Every move but a frame leaves the studio idle and draws no window. -/
theorem idles_run {m : Move} (hm : ∀ deeds, m ≠ .frame deeds) (l : FrameLoop) :
  Studio.Idles l.studio (m.run l).studio ∧ Recalls l (m.run l)
  := by
  cases m with
  | deed d =>
    use idles_run_deed l d
    cases d <;> exact Recalls.of_windows rfl
  | addWindow c s =>
    use (addWindow_spec l c s).2
    intro w' hw' t ht
    rcases List.mem_append.1 hw' with hw | hw
    · use w', hw, rfl
    · cases List.mem_singleton.1 hw
      cases ht
  | forgetWalk c => exact ⟨Studio.Idles.refl _, recalls_forgetWalk l c⟩
  | listen => exact ⟨Studio.Idles.refl _, Recalls.of_windows rfl⟩
  | restyle => exact ⟨(restyle_spec l).2, Recalls.of_windows (windows_restyle l)⟩
  | quit => exact ⟨Studio.Idles.refl _, Recalls.of_windows rfl⟩
  | frame deeds => exact absurd rfl (hm deeds)

/-! ### Drawing -/

/-- When the animations have moved, the clock is on record. -/
theorem timely_animated (h : l.Orderly config kind) :
  l.animated.studio.Timely config l.markClosing.studio.now
  := by
  refine ⟨h.animated.regular, ?_, ?_⟩
  · rw [studio_animated]
    apply Host.fresh_record
  · rw [studio_animated, studio_markClosing]
    exact List.mem_cons_of_mem _ List.mem_cons_self

/-- A window that is painted or walked has its objects kept from then on. -/
theorem Draws.keptFrom {now : Instant} {w w' : Window} {nodes : List (Node × Position)}
    {s s' : Studio} {d : Drawn} (h : Draws now w nodes s d w' s') (hd : d ≠ .left)
    {n : Node × Position} (hn : n ∈ nodes) (ht : s.Timely config now)
    (hs : s'.host.log.Steady) :
  s'.KeptFrom config now n.1.object
  := by
  cases h with
  | left => exact absurd rfl hd
  | walked =>
    have hcourse := Studio.course_keepAlive s nodes
    have hrecord := Studio.course_record (s.keepAlive nodes).2 (e := .walked w.canvas) trivial
    have hs' := hrecord.extends_log.steady hs
    apply Studio.KeptFrom.course _ (ht.course hcourse) hrecord hs
    apply Studio.keptFrom_keepAlive hn ht
    apply hcourse.extends_log.steady hs'
  | repainted stale calls hc =>
    have hdrop := (Studio.Course.foldl Studio.course_dropTexture stale s).append
      (Studio.course_record _ (e := .frameBegun w.canvas) trivial)
    have hcalls := course_calls (repaintNodes s w.canvas stale nodes) hc
    have hpainted := ht.course (course_repaintNodes s w.canvas stale nodes)
    apply Studio.KeptFrom.course _ hpainted hcalls hs
    apply Studio.keptFrom_paintAll hn (ht.course hdrop)
    apply hcalls.extends_log.steady hs

/-- A window is left alone because it closes or is not due for a walk, or it is drawn and its
objects are kept from then on. -/
theorem drawn_cases (h : l.Orderly config kind) {d : Drawn × Window} (hd : d ∈ l.drawn.1) :
  d.1 = .left ∧ d.2 ∈ l.animated.windows ∧ (d.2.state = .closing ∨ d.2.walkedAt.all (fun last =>
      config.lifetime.less config.walkMargin < l.markClosing.studio.now.since last) = false)
    ∨ d.1 ≠ .left ∧ d.2.walkedAt = some l.markClosing.studio.now
      ∧ ∀ o, l.Has d.2.canvas o → l.drawn.2.studio.host.log.Steady →
        l.drawn.2.studio.KeptFrom config l.markClosing.studio.now o
  := by
  obtain ⟨w, hw, s, s', hbefore, hdraws, hafter⟩ := exists_draws hd
  have htimely := (timely_animated h).course hbefore
  by_cases hleft : d.1 = .left
  · apply Or.inl
    use hleft
    obtain ⟨d, w'⟩ := d
    cases hleft
    cases hdraws with
    | left hnot =>
      rw [htimely.regular.config] at hnot
      exact ⟨hw, hnot⟩
  · apply Or.inr
    use hleft
    have hwalk := (sameScenes_animated l).walk w.canvas
    use hdraws.walkedAt_eq hleft
    rintro o ⟨n, hn, rfl⟩ hs
    rw [hdraws.canvas_eq, ← hwalk] at hn
    apply Studio.KeptFrom.course _ (htimely.course hdraws.course) hafter hs
    apply hdraws.keptFrom hleft hn htimely
    apply hafter.extends_log.steady hs

theorem extends_log_drawn (l : FrameLoop) :
  Log.Extends l.studio.host.log l.drawn.2.studio.host.log
  := by
  apply Log.Extends.trans _ (course_drawn l).extends_log
  rw [studio_animated]
  apply Host.extends_record

theorem dated_animated (hd : l.Dated) :
  l.animated.Dated
  := by
  apply hd.recalls (recalls_animated l)
  rw [studio_animated]
  apply Host.extends_record

theorem dated_drawn (h : l.Orderly config kind) (hd : l.Dated) :
  l.drawn.2.Dated
  := by
  have hx := (course_drawn l).extends_log
  intro w hw t ht
  obtain ⟨d, hmem, rfl⟩ := List.mem_map.1 hw
  apply hx.mem_readings
  rcases drawn_cases h hmem with ⟨-, hw, -⟩ | ⟨-, hnow, -⟩
  · apply dated_animated hd d.2 hw t ht
  · rw [hnow] at ht
    cases ht
    apply (timely_animated h).read

/-- An object on a canvas that is drawn, or from which it was kept before, is kept. -/
theorem keeps_drawn (h : l.Orderly config kind) (hd : l.Dated) (ho : l.Has c o)
    (hs : l.drawn.2.studio.host.log.Steady)
    (hk : l.Keeps config c o ∨ ∃ d ∈ l.drawn.1, d.1 ≠ .left ∧ d.2.canvas = c) :
  l.drawn.2.Keeps config c o
  := by
  have htimely := timely_animated h
  have hcourse := course_drawn l
  intro w hw hc t ht
  obtain ⟨d, hmem, rfl⟩ := List.mem_map.1 hw
  rcases drawn_cases h hmem with ⟨-, hw, -⟩ | ⟨-, hnow, hkept⟩
  · have hread := dated_animated hd d.2 hw t ht
    rcases hk with hk | ⟨d', hmem', hleft', hc'⟩
    · have hidle : Studio.Idles l.studio l.animated.studio := by
        rw [studio_animated]
        apply Studio.Idles.record
        trivial
      have hkept := hk.idle (recalls_animated l) hidle d.2 hw hc t ht
      apply hkept.course ⟨htimely.regular, htimely.fresh, hread⟩ hcourse hs
    · -- Another window of the canvas was drawn, and later than this one.
      rcases drawn_cases h hmem' with ⟨hleft, -⟩ | ⟨-, -, hkept⟩
      · exact absurd hleft hleft'
      · rw [hc'] at hkept
        apply (hkept o ho hs).mono
        obtain ⟨w, hw, -, ht⟩ := recalls_animated l d.2 hw t ht
        have hforward := (hcourse.extends_log.steady hs).forward
        rw [studio_animated, studio_markClosing] at *
        apply (List.pairwise_cons.1 (List.pairwise_cons.1 hforward).2).1 t (hd w hw t ht)
  · rw [hnow] at ht
    cases ht
    rw [hc] at hkept
    apply hkept o ho hs

/-! ### Whole frames -/

theorem recalls_finished (l : FrameLoop) :
  Recalls l.drawn.2 l.finished
  := by
  obtain ⟨-, -, -, hwindows⟩ := l.finished_spec
  intro w hw t ht
  rw [hwindows] at hw
  use w, (List.mem_filter.1 hw).1, rfl

theorem dated_finished (h : l.Orderly config kind) (hd : l.Dated) :
  l.finished.Dated
  := (dated_drawn h hd).recalls (recalls_finished l) (course_finished_of_drawn l).extends_log

theorem keeps_finished (h : l.Orderly config kind) (hd : l.Dated) (ho : l.finished.Has c o)
    (hs : l.finished.studio.host.log.Steady)
    (hk : l.Keeps config c o ∨ ∃ d ∈ l.drawn.1, d.1 ≠ .left ∧ d.2.canvas = c) :
  l.finished.Keeps config c o
  := by
  have hcourse := course_finished_of_drawn l
  have hhas : l.Has c o := by
    obtain ⟨n, hn, hno⟩ := ho
    rw [walk_finished] at hn
    use n, hn
  have hdrawn := keeps_drawn h hd hhas (hcourse.extends_log.steady hs) hk
  apply hdrawn.course (dated_drawn h hd) (recalls_finished l) h.drawn.regular _ hcourse hs
  apply (course_drawn l).fresh (timely_animated h).fresh

theorem dated_polled (hd : l.Dated) (deeds : List Deed) :
  (l.polled deeds).Dated
  := hd.recalls (Recalls.of_windows (windows_polled l deeds)) (idles_polled l deeds).extends_log

theorem extends_log_run (hq : l.queue = []) (m : Move) :
  Log.Extends l.studio.host.log (m.run l).studio.host.log
  := by
  by_cases hm : ∃ deeds, m = .frame deeds
  · obtain ⟨deeds, rfl⟩ := hm
    rw [run_frame hq]
    split
    · apply Log.Extends.refl
    · apply (idles_polled l deeds).extends_log.trans
      apply (extends_log_drawn _).trans (course_finished_of_drawn _).extends_log
  · rw [not_exists] at hm
    apply (idles_run hm l).1.extends_log

theorem Orderly.dated_run (h : l.Orderly config kind) (hd : l.Dated) {m : Move}
    (hm : m.Respects kind) :
  (m.run l).Dated
  := by
  by_cases hframe : ∃ deeds, m = .frame deeds
  · obtain ⟨deeds, rfl⟩ := hframe
    rw [run_frame h.queue]
    split
    · apply hd
    · apply dated_finished (h.polled hm) (dated_polled hd deeds)
  · rw [not_exists] at hframe
    obtain ⟨hidle, hrecalls⟩ := idles_run hframe l
    apply hd.recalls hrecalls hidle.extends_log

/-- A move after which the object is on the canvas keeps it, if it was kept before or the canvas
is drawn. -/
theorem Orderly.keeps_run (h : l.Orderly config kind) (hd : l.Dated) {m : Move}
    (hm : m.Respects kind) (ho : (m.run l).Has c o) (hs : (m.run l).studio.host.log.Steady)
    (hk : l.Keeps config c o ∨ ∃ deeds, m = .frame deeds ∧ l.DrawsNext deeds c) :
  (m.run l).Keeps config c o
  := by
  by_cases hframe : ∃ deeds, m = .frame deeds
  · obtain ⟨deeds, rfl⟩ := hframe
    rw [run_frame h.queue] at ho hs ⊢
    split at hs
    · rename_i hquit
      rw [if_pos hquit]
      rcases hk with hk | ⟨_, -, hphase, -⟩
      · apply hk
      · exact absurd hquit hphase
    · rename_i hquit
      rw [if_neg hquit] at ho ⊢
      apply keeps_finished (h.polled hm) (dated_polled hd deeds) ho hs
      rcases hk with hk | ⟨_, heq, -, hdrawn⟩
      · apply Or.inl
        apply hk.idle (Recalls.of_windows (windows_polled l deeds)) (idles_polled l deeds)
      · cases heq
        apply Or.inr hdrawn
  · obtain ⟨hidle, hrecalls⟩ := idles_run (not_exists.1 hframe) l
    rcases hk with hk | ⟨deeds, heq, -⟩
    · apply hk.idle hrecalls hidle
    · exact absurd ⟨deeds, heq⟩ hframe

/-! ### Runs -/

section

variable {layouts : Layouts} {policy : Policy} {moves : List Move}

theorem play_concat (l : FrameLoop) (moves : List Move) (m : Move) :
  l.play (moves ++ [m]) = m.run (l.play moves)
  := List.foldl_append

theorem dated_play (hp : policy.Calm) (hm : ∀ m ∈ moves, m.Respects kind) :
  ((ofConfig layouts config policy).play moves).Dated
  := by
  apply And.right
  apply orderly_play_invariant hp hm
  · intro l m ho hm hd
    apply ho.dated_run hd hm
  · intro w hw
    cases hw

/-- An object that stays on a canvas is kept from the moment on at which it was last drawn. -/
theorem keeps_of_stays (hp : policy.Calm) (hm : ∀ m ∈ moves, m.Respects kind)
    (h : Stays (ofConfig layouts config policy) c o moves)
    (hs : ((ofConfig layouts config policy).play moves).studio.host.log.Steady) :
  ((ofConfig layouts config policy).play moves).Keeps config c o
  := by
  induction h with
  | drawn moves deeds hd ho =>
    have hbefore : ∀ m ∈ moves, m.Respects kind := fun m hmem =>
      hm m (List.mem_append_left _ hmem)
    rw [play_concat] at ho hs ⊢
    apply (orderly_play hp hbefore).keeps_run (dated_play hp hbefore) _ ho hs
    · apply Or.inr
      use deeds
    · apply hm
      simp
  | later moves m _ ho ih =>
    have hbefore : ∀ m ∈ moves, m.Respects kind := fun m hmem =>
      hm m (List.mem_append_left _ hmem)
    have horderly : ((ofConfig layouts config policy).play moves).Orderly config kind :=
      orderly_play hp hbefore
    rw [play_concat] at ho hs ⊢
    apply horderly.keeps_run (dated_play hp hbefore) _ ho hs
    · apply Or.inl
      apply ih hbefore
      apply (extends_log_run horderly.queue m).steady hs
    · apply hm
      simp

end

/-- Less than a lifetime after an instant, and before the last one, an object kept from that
instant on is alive. -/
theorem aliveAt_of_keptFrom {s : Studio} {shown : CanvasId → Prop} {now t : Instant}
    (hsound : s.Sound kind shown) (hk : s.KeptFrom config t o)
    (hlt : now.nanos < t.nanos + config.lifetime.nanos) (hearly : now.nanos < horizon) :
  s.AliveAt now o
  := by
  have hafter : now < t.after config.lifetime := by
    rw [Instant.lt_iff, Instant.nanos_after]
    omega
  have hmounting : ∀ m, s.mounting? o = some m → now < m.deadline := by
    intro m hm
    apply Nat.lt_of_lt_of_le hafter (hk m hm)
  use hmounting
  intro r hr
  obtain ⟨-, m, hm, hdeadline⟩ := (hsound o).rendered r hr
  rw [← hdeadline]
  apply hmounting m hm

/-- A window is due for a walk when no more than the walk margin is left of a lifetime.  So what
is drawn less than the margin after a frame in which it was not due is drawn in time. -/
theorem lt_lifetime_of_not_due {lifetime margin : Duration} {last start now : Instant}
    (hdue : ¬ lifetime.less margin < start.since last) (hmargin : now.since start < margin)
    (hlifetime : now.since start < lifetime) :
  now.nanos < last.nanos + lifetime.nanos
  := by
  rw [Duration.lt_iff, Instant.nanos_since] at hdue hmargin hlifetime
  change ¬ lifetime.nanos - margin.nanos < _ at hdue
  omega

/-- A sweep never takes what an open window still shows.  Let a frame follow on whatever was done
to a new loop in which every object is always drawn as the same kind, and let the clock neither
go back nor come to the last instant.  If drawing takes less than the walk margin and less than
a lifetime, the sweep of the frame spares every object on the canvas of a window that was not
asked to close, provided that it was there ever since the window was last painted or walked. -/
theorem sweep_spares_shown (layouts : Layouts) (config : Config) (policy : Policy)
    (hp : policy.Calm) (kind : ObjectId → ObjectKind) (moves : List Move)
    (hm : ∀ m ∈ moves, m.Respects kind)
    (deeds : List Deed) (hd : ∀ d ∈ deeds, d.Respects kind) (d : Drawn × Window) (o : ObjectId) :
  let start := ofConfig layouts config policy
  let l := (start.play moves).polled deeds
  let elapsed := l.drawn.2.studio.now.since l.markClosing.studio.now
  (start.play moves).phase ≠ .quit →
  d ∈ l.drawn.1 → d.2.state = .shown →
  l.Has d.2.canvas o → (d.1 = .left → Stays start d.2.canvas o moves) →
  l.drawn.2.studio.host.log.Steady →
  elapsed < config.walkMargin → elapsed < config.lifetime →
  start.play (moves ++ [.frame deeds]) = l.finished
    ∧ Studio.Spares o l.drawn.2.studio l.swept.studio
  := by
  intro start l elapsed hphase hmem hshown ho hstays hs hmargin hlifetime
  have hbefore : (start.play moves).Orderly config kind := orderly_play hp hm
  have horderly : l.Orderly config kind := hbefore.polled hd
  have htimely := timely_animated horderly
  have hcourse := course_drawn l
  have hfresh := hcourse.fresh htimely.fresh
  constructor
  · rw [play_concat, run_frame hbefore.queue, if_neg hphase]
  · rw [studio_swept]
    apply (Studio.course_sweep _ _ _).spares
    have hearly : l.drawn.2.studio.now.nanos < horizon := hs.early _ hfresh.mem
    rcases drawn_cases horderly hmem with ⟨hleft, -, hnot⟩ | ⟨-, -, hkept⟩
    · rcases hnot with hclosing | hnot
      · rw [hshown] at hclosing
        cases hclosing
      · obtain ⟨last, hlast, hdue⟩ := (Option.all_eq_false _ _).1 hnot
        have hlog := (idles_polled (start.play moves) deeds).extends_log.trans
          (extends_log_drawn l)
        have hkeeps := keeps_of_stays hp hm (hstays hleft) (hlog.steady hs)
        have hkeeps := hkeeps.idle (Recalls.of_windows (windows_polled _ deeds))
          (idles_polled _ deeds)
        have hdated : l.Dated := dated_polled (dated_play hp hm) deeds
        have hkept := keeps_drawn horderly hdated ho hs (Or.inl hkeeps) d.2
          (List.mem_map_of_mem hmem) rfl last hlast
        apply aliveAt_of_keptFrom horderly.drawn.sound hkept _ hearly
        apply lt_lifetime_of_not_due (of_decide_eq_false hdue) hmargin hlifetime
    · apply aliveAt_of_keptFrom horderly.drawn.sound (hkept o ho hs) _ hearly
      rw [Duration.lt_iff, Instant.nanos_since] at hlifetime
      omega

end FrameLoop

/-- The policy under which painting an object takes three tenths of a second. -/
def Policy.slow : Policy where
  pause _ e := match e with
    | .painted _ _ _ => ⟨300000000⟩
    | _ => .zero
  upload := Policy.prompt.upload

/-- Two windows are painted, the first with a widget; then all but the walk margin of a lifetime
passes, and the second changes. -/
def FrameLoop.almostExpired : List Move :=
  [.deed (.edit ⟨1⟩ (.addRoot (.widget ⟨11⟩) .origin)),
    .deed (.edit ⟨2⟩ (.addRoot (.ofTexture ⟨10⟩) .origin)), .addWindow ⟨1⟩ ⟨1⟩, .addWindow ⟨2⟩ ⟨2⟩]
    ++ [.frame []] ++ [.deed (.clock (.ofNanos 59000000000))] ++ [.deed (.edit ⟨2⟩ .setDirty)]

theorem FrameLoop.sweep_spares_almostExpired :
  let l := ((ofConfig .spread .standard .slow).play almostExpired).polled []
  Studio.Spares ⟨11⟩ l.drawn.2.studio l.swept.studio
    ∧ l.swept.studio.renderer? ⟨11⟩ = some ⟨⟨1⟩, .ofNanos 60000000000⟩
    ∧ l.swept.studio.now = .ofNanos 59300000000
  := by
  intro l
  let kind : ObjectId → ObjectKind := fun o => if o = ⟨11⟩ then .widget else .plain
  have hcalm : Policy.slow.Calm := by
    intro _ e he
    cases e <;> first | rfl | exact absurd trivial he
  have hrespects : ∀ m ∈ almostExpired, m.Respects kind := by
    simp [almostExpired, Move.Respects, Deed.Respects, Edit.Respects, Node.Fits, Node.ofTexture,
      Node.widget, kind]
  have hstays : Stays (ofConfig .spread .standard .slow) ⟨1⟩ ⟨11⟩ almostExpired := by
    apply Stays.later
    · apply Stays.later
      · apply Stays.drawn
        · decide +kernel
        · decide +kernel
      · decide +kernel
    · decide +kernel
  obtain ⟨-, hspares⟩ := sweep_spares_shown .spread .standard .slow hcalm kind almostExpired
    hrespects [] (by simp) (.left, { canvas := ⟨1⟩, surface := ⟨1⟩, walkedAt := some .epoch }) ⟨11⟩
    (by decide +kernel) (by decide +kernel) rfl (by decide +kernel) (fun _ => hstays)
    (by decide +kernel) (by decide +kernel) (by decide +kernel)
  constructor
  · dsimp only [l]
    apply hspares
  constructor
  · decide +kernel
  · decide +kernel

end FrameCache
