import FrameCache.Proofs.Restyling

/-!
# Changes of the settings take effect

A frame receives the changes of the settings before the platform polls its events, and so before
any window is painted.  Applying the settings marks the canvas of every window, and of windows that
have canvases and surfaces of their own, the frame paints just those that are visible and do not
close.  A window that is hidden goes on to wait: whatever happens, its canvas stays marked until it
is painted, which is in the first frame that finds the window visible and not closing.
-/

namespace FrameCache

namespace FrameLoop

variable {ε : Type} {poll : ε → FrameLoop → ε × FrameLoop} {l l' l'' : FrameLoop} {w : Window}

/-! ### Loops with separate windows -/

/-- All windows are shown, as they are between frames, and each has a canvas and a surface of its
own. -/
structure Apart (l : FrameLoop) : Prop where
  /-- All windows are shown. -/
  shown : ∀ w ∈ l.windows, w.state = .shown
  /-- No two windows show the same canvas. -/
  canvases : (l.windows.map Window.canvas).Nodup
  /-- No two windows are on the same surface. -/
  surfaces : (l.windows.map Window.surface).Nodup

namespace Apart

/-- It is a matter of where the windows are and of their states only. -/
theorem congr (h : l.Apart)
    (hw : l'.windows.map (fun w => (w.place, w.state))
      = l.windows.map fun w => (w.place, w.state)) :
  l'.Apart
  := by
  have hstates := congrArg (List.map Prod.snd) hw
  have hcanvases := congrArg (List.map fun p => p.1.1) hw
  have hsurfaces := congrArg (List.map fun p => p.1.2) hw
  rw [List.map_map, List.map_map] at hstates hcanvases hsurfaces
  refine ⟨?_, hcanvases ▸ h.canvases, hsurfaces ▸ h.surfaces⟩
  intro w hw
  have hmem : w.state ∈ l'.windows.map Window.state := List.mem_map_of_mem hw
  obtain ⟨w', hw', hstate⟩ := List.mem_map.1 (hstates ▸ hmem)
  exact hstate ▸ h.shown w' hw'

theorem finished (h : l.Apart) :
  l.finished.Apart
  := by
  have hplaces := places_finished h.shown h.surfaces
  have hcanvases := congrArg (List.map Prod.fst) hplaces
  have hsurfaces := congrArg (List.map Prod.snd) hplaces
  rw [List.map_map, List.map_map] at hcanvases hsurfaces
  refine ⟨l.shown_finished, ?_, ?_⟩
  · exact hcanvases ▸ h.canvases.sublist (List.filter_sublist.map Window.canvas)
  · exact hsurfaces ▸ h.surfaces.sublist (List.filter_sublist.map Window.surface)

/-- A window is known by its canvas. -/
theorem place_eq (h : l.Apart) {p q : CanvasId × SurfaceId} (hp : p ∈ l.windows.map Window.place)
    (hq : q ∈ l.windows.map Window.place) (hpq : p.1 = q.1) :
  p = q
  := by
  have hn : ((l.windows.map Window.place).map Prod.fst).Nodup := by
    rw [List.map_map]
    exact h.canvases
  exact List.inj_on_of_nodup_map hn hp hq hpq

theorem places_drawn (h : l.Apart) :
  l.drawn.1.map (fun d => d.2.place) = l.windows.map Window.place
  := by
  have hplaces := congrArg (List.map Prod.fst) (FrameLoop.places_drawn h.shown h.surfaces)
  rw [List.map_map, List.map_map] at hplaces
  exact hplaces

/-- A window with a marked canvas is painted just if it does not close and is visible. -/
theorem eq_repainted_iff (h : l.Apart) {d : Drawn × Window} (hd : d ∈ l.drawn.1)
    (hm : (l.canvas d.2.canvas).isDirty = true) :
  d.1 = .repainted ↔ l.wantsClose d.2 = false ∧ l.isVisible d.2 = true
  := by
  obtain ⟨earlier, later, hsplit⟩ := List.append_of_mem hd
  have hiff := eq_repainted_iff_of_marks h.shown h.surfaces hsplit (marks_nil hm)
  -- no window before it shows the same canvas
  have hearlier : drawHappenings d.2.canvas earlier = [] := by
    have hn : (l.drawn.1.map fun d => d.2.canvas).Nodup := by
      have hcanvases := congrArg (List.map Prod.fst) h.places_drawn
      rw [List.map_map, List.map_map] at hcanvases
      exact hcanvases ▸ h.canvases
    rw [hsplit, List.map_append, List.map_cons] at hn
    apply drawHappenings_eq_nil
    intro d' hd' _
    exact (List.nodup_append.1 hn).2.2 _ (List.mem_map_of_mem hd') _ List.mem_cons_self
  rw [hiff, hearlier, List.append_nil, and_iff_left Happening.due_nil]

end Apart

/-! ### Windows that are painted -/

/-- A frame paints the window once the platform has polled its events: in calls of their own, the
painter is given the whole canvas, between the beginning and the end of a frame. -/
structure Paints (l : FrameLoop) (w : Window) : Prop where
  /-- The window is among those painted. -/
  drawn : ∃ d ∈ l.drawn.1, d.1 = .repainted ∧ d.2.place = w.place
  /-- The calls are among those made since. -/
  calls : ∃ swaps before after, l.finished.studio.host.log.windowCalls
    = after ++ (Drawn.repainted.windowCalls w (l.canvas w.canvas).walk swaps).reverse
      ++ (before ++ l.studio.host.log.windowCalls)

theorem exists_infix_of_calls {ds : List (Drawn × Window)} {calls : List (List WindowCall)}
    (h : List.Forall₂ l.Calls ds calls) {d : Drawn × Window} (hd : d ∈ ds) :
  ∃ cs, l.Calls d cs ∧ cs <:+: calls.flatten
  := by
  induction h with
  | nil => cases hd
  | @cons d' cs _ _ hcalls _ ih =>
    rcases List.mem_cons.1 hd with rfl | hd
    · exact ⟨cs, hcalls, [], _, rfl⟩
    · obtain ⟨cs', hcs', hinfix⟩ := ih hd
      exact ⟨cs', hcs', hinfix.trans (List.suffix_append _ _).isInfix⟩

theorem paints_of_mem {d : Drawn × Window} (hd : d ∈ l.drawn.1) (hpainted : d.1 = .repainted)
    (hplace : d.2.place = w.place) :
  l.Paints w
  := by
  refine ⟨⟨d, hd, hpainted, hplace⟩, ?_⟩
  obtain ⟨calls, hcalls, hlog⟩ := windowCalls_finished l
  obtain ⟨cs, ⟨swaps, rfl⟩, before, after, hflatten⟩ := exists_infix_of_calls hcalls hd
  have hcanvas : d.2.canvas = w.canvas := congrArg Prod.fst hplace
  have hsurface : d.2.surface = w.surface := congrArg Prod.snd hplace
  have hcs : d.1.windowCalls d.2 (l.canvas d.2.canvas).walk swaps
      = Drawn.repainted.windowCalls w (l.canvas w.canvas).walk swaps := by
    rw [hpainted, Drawn.windowCalls, Drawn.windowCalls, hcanvas, hsurface]
  rw [hcs] at hflatten
  refine ⟨swaps, before.reverse,
    (l.swept.closing.map fun w => WindowCall.released w.surface).reverse ++ after.reverse, ?_⟩
  rw [hlog, ← hflatten, List.reverse_append, List.reverse_append]
  simp only [List.append_assoc]

/-! ### Windows that wait -/

/-- The window is there, apart from the others, and its canvas is marked. -/
structure Waits (w : Window) (l : FrameLoop) : Prop where
  /-- The windows are apart. -/
  apart : l.Apart
  /-- The window is there. -/
  here : w.place ∈ l.windows.map Window.place
  /-- The canvas of the window is marked. -/
  marked : (l.canvas w.canvas).isDirty = true

/-- A window that waits is painted just if it does not close and is visible. -/
theorem Waits.paints_iff (h : Waits w l) :
  l.Paints w ↔ l.wantsClose w = false ∧ l.isVisible w = true
  := by
  have hiff {d : Drawn × Window} (hd : d ∈ l.drawn.1) (hplace : d.2.place = w.place) :
      d.1 = .repainted ↔ l.wantsClose w = false ∧ l.isVisible w = true := by
    have hcanvas : d.2.canvas = w.canvas := congrArg Prod.fst hplace
    have hsurface : d.2.surface = w.surface := congrArg Prod.snd hplace
    rw [h.apart.eq_repainted_iff hd (hcanvas ▸ h.marked), wantsClose_congr hsurface,
      isVisible_congr hsurface]
  constructor
  · rintro ⟨⟨d, hd, hpainted, hplace⟩, -⟩
    exact (hiff hd hplace).1 hpainted
  · intro hseen
    have hplace := h.here
    rw [← h.apart.places_drawn] at hplace
    obtain ⟨d, hd, hplace⟩ := List.mem_map.1 hplace
    exact paints_of_mem hd ((hiff hd hplace).2 hseen) hplace

/-- A window that is hidden and does not close goes on to wait after the frame. -/
theorem Waits.finished (h : Waits w l) (hcloses : l.wantsClose w = false)
    (hhidden : l.isVisible w = false) :
  Waits w l.finished
  := by
  obtain ⟨w', hw', hplace⟩ := List.mem_map.1 h.here
  refine ⟨h.apart.finished, ?_, ?_⟩
  · rw [places_finished h.apart.shown h.apart.surfaces, ← hplace]
    apply List.mem_map_of_mem
    rw [List.mem_filter, wantsClose_congr (congrArg Prod.snd hplace), hcloses]
    exact ⟨hw', rfl⟩
  · have hnone : drawHappenings w.canvas l.drawn.1 = [] := by
      apply drawHappenings_eq_nil
      intro d hd hpainted hcanvas
      have hmem := List.mem_map_of_mem (f := fun d : Drawn × Window => d.2.place) hd
      rw [h.apart.places_drawn] at hmem
      have hplace := h.apart.place_eq hmem h.here hcanvas
      have hvisible := (h.paints_iff.1 (paints_of_mem hd hpainted hplace)).2
      exact nomatch hhidden.symm.trans hvisible
    apply (marks_nil h.marked).finished.2
    rw [hnone]
    exact Happening.due_nil

/-! ### What leaves windows waiting -/

/-- From one loop to another no window goes and no mark is taken off a canvas, and the windows are
apart afterwards. -/
structure Kept (l l' : FrameLoop) : Prop where
  /-- The windows are still there. -/
  places : ∀ p ∈ l.windows.map Window.place, p ∈ l'.windows.map Window.place
  /-- Canvases that were marked still are. -/
  marked : ∀ c, (l.canvas c).isDirty = true → (l'.canvas c).isDirty = true
  /-- The windows are apart. -/
  apart : l'.Apart

theorem Waits.kept (h : Waits w l) (hk : Kept l l') :
  Waits w l'
  := ⟨hk.apart, hk.places _ h.here, hk.marked _ h.marked⟩

theorem Kept.trans (h : Kept l l') (h' : Kept l' l'') :
  Kept l l''
  := ⟨fun p hp => h'.places p (h.places p hp), fun c hc => h'.marked c (h.marked c hc), h'.apart⟩

theorem Apart.kept (h : l.Apart)
    (hw : l'.windows.map (fun w => (w.place, w.state)) = l.windows.map fun w => (w.place, w.state))
    (hm : ∀ c, (l.canvas c).isDirty = true → (l'.canvas c).isDirty = true) :
  Kept l l'
  := by
  have hplaces := congrArg (List.map Prod.fst) hw
  rw [List.map_map, List.map_map] at hplaces
  exact ⟨fun _ hp => hplaces ▸ hp, hm, h.congr hw⟩

theorem Apart.kept_restyle (h : l.Apart) :
  Kept l l.restyle
  := by
  apply h.kept (congrArg _ (windows_restyle l))
  intro c hc
  rw [isDirty_restyle, hc, Bool.or_true]

theorem Apart.kept_drain (h : l.Apart) :
  Kept l l.drain.2
  := by
  rw [drain_eq]
  exact h.kept rfl fun _ => id

theorem Apart.kept_receiveAll (h : l.Apart) :
  Kept l l.receiveAll
  := by
  cases hnews : l.hasNews with
  | false =>
    rw [receiveAll_of_hasNews_eq_false hnews]
    exact h.kept rfl fun _ => id
  | true =>
    rw [receiveAll_of_hasNews hnews]
    let received : FrameLoop := { l with settings := l.settings.map Mailbox.received }
    have hreceived : Kept l received := h.kept rfl fun _ => id
    exact hreceived.trans hreceived.apart.kept_restyle

/-- The platform leaves the windows as they are when it polls, and takes no mark off a canvas. -/
structure Polite (poll : ε → FrameLoop → ε × FrameLoop) : Prop where
  /-- The windows are left as they are. -/
  windows : ∀ e l, (poll e l).2.windows = l.windows
  /-- Canvases that were marked still are. -/
  marked : ∀ e l c, (l.canvas c).isDirty = true → ((poll e l).2.canvas c).isDirty = true

/-- The loop once a frame has run the closures, received the changes of the settings and had the
platform poll its events. -/
def polledBy (poll : ε → FrameLoop → ε × FrameLoop) (e : ε) (l : FrameLoop) : FrameLoop :=
  (poll e (l.drain.2.receiveAll.record .polled)).2

/-- Unless the loop has quit or a closure fails, the frame goes on to its end. -/
theorem tick_eq_finished (hphase : l.phase ≠ .quit) (hfine : l.drain.1.2 = true) (e : ε) :
  (l.tick poll e).2.2 = (l.polledBy poll e).finished
  := congrArg (fun d => d.2.2) (turn_tick_of_drained poll hphase hfine e)

/-- If a closure fails, the frame does nothing but run closures. -/
theorem tick_eq_drain (hphase : l.phase ≠ .quit) (hfails : l.drain.1.2 = false) (e : ε) :
  (l.tick poll e).2.2 = l.drain.2
  := congrArg (fun d => d.2.2) (turn_tick_of_failed poll hphase hfails e)

theorem Apart.kept_polledBy (h : l.Apart) (hpoll : Polite poll) (e : ε) :
  Kept l (l.polledBy poll e)
  := by
  have hreceived := h.kept_drain.trans h.kept_drain.apart.kept_receiveAll
  have hcalled : Kept l.drain.2.receiveAll (l.drain.2.receiveAll.record .polled) :=
    hreceived.apart.kept rfl fun _ => id
  have hready := hreceived.trans hcalled
  exact hready.trans (hready.apart.kept (congrArg _ (hpoll.windows e _)) (hpoll.marked e _))

/-- From one loop the other can be reached without any frame that finds the window visible or
closes it. -/
inductive Unseen (w : Window) : FrameLoop → FrameLoop → Prop where
  /-- Nothing happens. -/
  | refl (l : FrameLoop) : Unseen w l l
  /-- Something happens that takes no window away and no mark off a canvas. -/
  | keeps {l l' l'' : FrameLoop} (h : Unseen w l l') (hk : Kept l' l'') : Unseen w l l''
  /-- A frame finds the window hidden and not closing. -/
  | frame {l l' : FrameLoop} {ε : Type} {poll : ε → FrameLoop → ε × FrameLoop} {e : ε}
      (h : Unseen w l l') (hpoll : Polite poll) (hphase : l'.phase ≠ .quit)
      (hfine : l'.drain.1.2 = true) (hcloses : (l'.polledBy poll e).wantsClose w = false)
      (hhidden : (l'.polledBy poll e).isVisible w = false) :
      Unseen w l (l'.tick poll e).2.2

/-- As long as no frame sees the window, it goes on to wait. -/
theorem Waits.unseen (h : Waits w l) (hu : Unseen w l l') :
  Waits w l'
  := by
  induction hu with
  | refl => exact h
  | keeps _ hk ih => exact ih.kept hk
  | frame _ hpoll hphase hfine hcloses hhidden ih =>
    rw [tick_eq_finished hphase hfine]
    exact (ih.kept (ih.apart.kept_polledBy hpoll _)).finished hcloses hhidden

/-- A turn of the loop leaves the window waiting, unless it is a frame that sees it. -/
theorem Unseen.turn (h : Unseen w l l') (ha : l'.Apart) (hpoll : Polite poll) (t : Turn) (e : ε)
    (hhidden : t = .tick → l'.phase ≠ .quit → l'.drain.1.2 = true →
      (l'.polledBy poll e).wantsClose w = false ∧ (l'.polledBy poll e).isVisible w = false) :
  Unseen w l (l'.turn poll t e).2.2
  := by
  cases t with
  | quit => exact h.keeps (ha.kept rfl fun _ => id)
  | task =>
    apply h.keeps
    change Kept l' l'.runNext.2
    rw [runNext]
    split
    · rename_i k queue hqueue
      obtain ⟨studio, queue', outcomes, hrun⟩ := exists_runTicket_eq { l' with queue } k
      rw [hrun]
      exact ha.kept rfl fun _ => id
    · exact ha.kept rfl fun _ => id
  | settings =>
    apply h.keeps
    change Kept l' l'.receiveOne
    rw [receiveOne]
    split
    · rename_i pending connected _
      let received : FrameLoop := { l' with settings := some { pending, connected } }
      have hreceived : Kept l' received := ha.kept rfl fun _ => id
      exact hreceived.trans hreceived.apart.kept_restyle
    · exact ha.kept rfl fun _ => id
  | tick =>
    change Unseen w l (l'.tick poll e).2.2
    by_cases hphase : l'.phase = .quit
    · rw [tick, if_pos hphase]
      exact h
    · cases hfine : l'.drain.1.2 with
      | false =>
        rw [tick_eq_drain hphase hfine]
        exact h.keeps ha.kept_drain
      | true =>
        obtain ⟨hcloses, hhidden⟩ := hhidden rfl hphase hfine
        exact h.frame hpoll hphase hfine hcloses hhidden

theorem isDirty_run_deed (d : Deed) {c : CanvasId} (hc : (l.canvas c).isDirty = true) :
  ((d.run l).canvas c).isDirty = true
  := by
  cases d with
  | edit c' e =>
    rw [Deed.run, canvas_setCanvas]
    split
    · rename_i heq
      rw [Edit.isDirty_run, ← heq, hc, Bool.or_true]
    · exact hc
  | _ => exact hc

theorem windows_run_deed (d : Deed) (l : FrameLoop) :
  (d.run l).windows = l.windows
  := by
  cases d <;> rfl

/-- The platform may do deeds while it polls. -/
theorem polite_deeds (deeds : List Deed) :
  Polite fun (_ : Unit) l => ((), deeds.foldl Deed.run l)
  := by
  constructor
  · intro _ l
    apply List.foldlRecOn (motive := fun l' : FrameLoop => l'.windows = l.windows)
    · rfl
    · intro l' h d _
      rw [windows_run_deed, h]
  · intro _ l c hc
    exact List.foldlRecOn (motive := fun l' : FrameLoop => (l'.canvas c).isDirty = true) _ _ hc
      fun _ h d _ => isDirty_run_deed d h

/-- A window that is opened is apart from those that are there. -/
theorem Apart.kept_addWindow (h : l.Apart) {c : CanvasId} {s : SurfaceId}
    (hc : c ∉ l.windows.map Window.canvas) (hs : s ∉ l.windows.map Window.surface) :
  Kept l (l.addWindow c s)
  := by
  have hwindows : (l.addWindow c s).windows = l.windows ++ [{ canvas := c, surface := s }] := rfl
  refine ⟨?_, fun _ => id, ?_, ?_, ?_⟩
  · intro p hp
    rw [hwindows, List.map_append]
    exact List.mem_append_left _ hp
  · intro w hw
    rw [hwindows] at hw
    rcases List.mem_append.1 hw with hw | hw
    · exact h.shown w hw
    · rw [List.mem_singleton.1 hw]
  · rw [hwindows, List.map_append]
    exact List.nodup_append.2 ⟨h.canvases, List.nodup_singleton _, by simpa using hc⟩
  · rw [hwindows, List.map_append]
    exact List.nodup_append.2 ⟨h.surfaces, List.nodup_singleton _, by simpa using hs⟩

/-- A move leaves the window waiting, unless it is a frame that sees it. -/
theorem Unseen.move (h : Unseen w l l') (ha : l'.Apart) (m : Move)
    (hnew : ∀ c s, m.opened? = some (c, s) →
      c ∉ l'.windows.map Window.canvas ∧ s ∉ l'.windows.map Window.surface)
    (hhidden : ∀ deeds, m = .frame deeds → l'.phase ≠ .quit → l'.drain.1.2 = true →
      (l'.drain.2.polled deeds).wantsClose w = false
        ∧ (l'.drain.2.polled deeds).isVisible w = false) :
  Unseen w l (m.run l')
  := by
  cases m with
  | deed d =>
    exact h.keeps (ha.kept (congrArg _ (windows_run_deed d l')) fun _ => isDirty_run_deed d)
  | addWindow c s =>
    obtain ⟨hc, hs⟩ := hnew c s rfl
    exact h.keeps (ha.kept_addWindow hc hs)
  | forgetWalk c => exact h.keeps (ha.kept (l'.map_forgetWalk (fun _ => rfl) c) fun _ => id)
  | listen => exact h.keeps (ha.kept rfl fun _ => id)
  | restyle => exact h.keeps ha.kept_restyle
  | quit => exact h.keeps (ha.kept rfl fun _ => id)
  | frame deeds => exact h.turn ha (polite_deeds deeds) .tick () fun _ => hhidden deeds rfl

/-! ### New settings -/

/-- Once the settings are applied anew, every window waits. -/
theorem Apart.waits_polledBy (h : l.Apart) (hpoll : Polite poll) (e : ε) (hnews : l.hasNews = true)
    (hw : w ∈ l.windows) :
  Waits w (l.polledBy poll e)
  := by
  have hkept := h.kept_polledBy hpoll e
  refine ⟨hkept.apart, hkept.places _ (List.mem_map_of_mem hw), ?_⟩
  have hdrained : l.drain.2.hasNews = true ∧ l.drain.2.Shows w.canvas := by
    rw [drain_eq]
    exact ⟨hnews, List.mem_map_of_mem hw⟩
  apply hpoll.marked
  change (l.drain.2.receiveAll.canvas w.canvas).isDirty = true
  rw [isDirty_receiveAll, decide_eq_true hdrained, Bool.true_or]

/-- Going over windows that are apart does something to the canvas of each once, and to no other
canvas. -/
theorem Apart.overWindows_once (h : l.Apart) (f : Canvas → Canvas) :
  (∀ w ∈ l.windows, (l.overWindows f).canvas w.canvas = f (l.canvas w.canvas))
    ∧ ∀ c, ¬ l.Shows c → (l.overWindows f).canvas c = l.canvas c
  := by
  constructor
  · intro w hw
    rw [canvas_overWindows, List.count_eq_one_of_mem h.canvases (List.mem_map_of_mem hw)]
    rfl
  · intro c hc
    rw [canvas_overWindows, List.count_eq_zero_of_not_mem hc]
    rfl

/-- Unless the loop has quit or a closure fails, a frame runs the closures that are queued and
receives the changes of the settings before the platform polls its events, and draws the windows
afterwards.  The windows are apart, and the platform takes no mark off their canvases.

If there are no changes, receiving them does nothing.  Otherwise, however many there are, the
channel is emptied, be it open or closed; the painter is called once to drop its glyphs; the
measured texts and the icons are dropped and counted as removed, whereas the other caches stay as
they are; and the settings are applied to the canvas of each window once, whatever applying them
does to a canvas.  So the frame paints just the windows that are visible and do not close.  A window
that is hidden is painted in the first frame that finds it visible and not closing, unless the loop
quits before: after any frames that find it hidden, whatever happens between them, a frame paints
the window just if it is visible and does not close. -/
theorem settings_take_effect (hpoll : Polite poll) (e : ε) (ha : l.Apart) (hphase : l.phase ≠ .quit)
    (hfine : l.drain.1.2 = true) :
  let l₁ := l.drain.2
  let p := (poll e (l₁.receiveAll.record .polled)).2
  let l' := (l.tick poll e).2.2
  l₁ = { l with studio := l₁.studio, queue := l₁.queue, outcomes := l₁.outcomes }
    ∧ l' = p.finished
    ∧ l'.settings = p.settings
    ∧ l'.studio.host.log.glyphDrops = p.studio.host.log.glyphDrops
    ∧ (l.hasNews = false → l₁.receiveAll = l₁)
    ∧ (l.hasNews = true →
      Restyled l₁ l₁.receiveAll
      ∧ (∀ f, (∀ w ∈ l.windows, (l₁.overWindows f).canvas w.canvas = f (l₁.canvas w.canvas))
        ∧ ∀ c, ¬ l.Shows c → (l₁.overWindows f).canvas c = l₁.canvas c)
      ∧ (∀ w ∈ l.windows, p.Paints w ↔ p.wantsClose w = false ∧ p.isVisible w = true)
      ∧ ∀ w ∈ l.windows, p.wantsClose w = false → p.isVisible w = false →
        ∀ later, Unseen w l' later → later.phase ≠ .quit → later.drain.1.2 = true →
        ∀ {ε' : Type} {poll' : ε' → FrameLoop → ε' × FrameLoop} (e' : ε'), Polite poll' →
          let p' := later.polledBy poll' e'
          (later.tick poll' e').2.2 = p'.finished
            ∧ (p'.Paints w ↔ p'.wantsClose w = false ∧ p'.isVisible w = true))
  := by
  intro l₁ p l'
  have hl₁ : l₁ = { l with studio := l₁.studio, queue := l₁.queue, outcomes := l₁.outcomes } :=
    l.drain_eq
  have hl' : l' = p.finished := tick_eq_finished hphase hfine e
  have hnews : l₁.hasNews = l.hasNews := (congrArg hasNews hl₁).trans rfl
  have hwindows : l₁.windows = l.windows := (congrArg windows hl₁).trans rfl
  refine ⟨hl₁, hl', ?_, ?_, ?_, ?_⟩
  · rw [hl']
    exact Undrawn.finished_eq (f := settings) (fun _ _ _ _ _ => rfl) (fun _ => rfl) p
  · rw [hl', glyphDrops_finished]
  · intro hnone
    exact receiveAll_of_hasNews_eq_false (hnews.trans hnone)
  · intro hsome
    have hwaits : ∀ w ∈ l.windows, Waits w p := fun w hw => ha.waits_polledBy hpoll e hsome hw
    refine ⟨restyled_receiveAll (hnews.trans hsome), ?_, ?_, ?_⟩
    · intro f
      obtain ⟨hshown, hothers⟩ := ha.kept_drain.apart.overWindows_once f
      refine ⟨fun w hw => hshown w (hwindows ▸ hw), fun c hc => hothers c ?_⟩
      rwa [Shows, hwindows]
    · intro w hw
      exact (hwaits w hw).paints_iff
    · intro w hw hcloses hhidden later hunseen hphase' hfine' ε' poll' e' hpoll' p'
      refine ⟨tick_eq_finished hphase' hfine' e', ?_⟩
      have hlater : Waits w later := by
        apply Waits.unseen _ hunseen
        rw [hl']
        exact (hwaits w hw).finished hcloses hhidden
      exact (hlater.kept (hlater.apart.kept_polledBy hpoll' e')).paints_iff

/-- The text that a closure measures. -/
def someText : TextKey := ⟨"Aa", 0, {}, ""⟩

/-- Two windows were painted, and the second is hidden now.  A closure that measures a text is
queued, and two changes of the settings are pending in a channel that is closed. -/
def twoNotices : FrameLoop :=
  { (ofConfig .spread .standard .prompt).play
      [.addWindow ⟨1⟩ ⟨1⟩, .addWindow ⟨2⟩ ⟨2⟩, .frame [], .deed (.surface ⟨2⟩ { visible := false }),
        .listen, .deed (.send ⟨some "dark"⟩), .deed (.send ⟨none⟩), .deed .dropSender] with
    queue := [⟨⟨1⟩, .act (fun _ s => s.update fun i now => i.setMeasured someText ⟨⟨0, 0⟩, 0⟩ now)
      (.finish 0)⟩] }

theorem settings_take_effect_twoNotices :
  let l := twoNotices
  let poll : Unit → FrameLoop → Unit × FrameLoop := fun _ l => ((), [].foldl Deed.run l)
  let p := l.polledBy poll ()
  let l' := (l.tick poll ()).2.2
  let later := (Move.deed (.surface ⟨2⟩ {})).run ((Move.frame []).run l')
  let seen : Window := { canvas := ⟨1⟩, surface := ⟨1⟩, walkedAt := some .epoch }
  let hidden : Window := { canvas := ⟨2⟩, surface := ⟨2⟩, walkedAt := some .epoch }
  l.windows = [seen, hidden]
    ∧ l.drain.2.studio.inventory.texts.resident someText = some ⟨⟨0, 0⟩, 0⟩
    ∧ l.drain.2.receiveAll.studio.inventory.texts.resident someText = none
    ∧ p.Paints seen ∧ ¬ p.Paints hidden ∧ (later.polledBy poll ()).Paints hidden
  := by
  intro l poll p l' later seen hidden
  have hwindows : l.windows = [seen, hidden] := by decide +kernel
  have hpoll : Polite poll := polite_deeds []
  have hapart : l.Apart := ⟨by decide +kernel, by decide +kernel, by decide +kernel⟩
  obtain ⟨-, -, -, -, -, heffect⟩ := settings_take_effect hpoll () hapart (by decide +kernel)
    (by decide +kernel)
  obtain ⟨hrestyled, -, hpaints, hwaits⟩ := heffect (by decide +kernel)
  have hseen : seen ∈ l.windows := by rw [hwindows]; simp
  have hhidden : hidden ∈ l.windows := by rw [hwindows]; simp
  have hinvisible : p.isVisible hidden = false := by decide +kernel
  refine ⟨hwindows, ?_, hrestyled.texts.resident someText,
    (hpaints seen hseen).2 ⟨by decide +kernel, by decide +kernel⟩, ?_, ?_⟩
  · change (l.studio.inventory.texts.insert someText l.studio.now _).2.resident someText = _
    rw [Cache.resident_insert, Function.update_self]
  · intro hpainted
    exact nomatch hinvisible.symm.trans ((hpaints hidden hhidden).1 hpainted).2
  · have hunseen : Unseen hidden l' ((Move.frame []).run l') := by
      refine (Unseen.refl l').move ⟨by decide +kernel, by decide +kernel, by decide +kernel⟩ _
        (fun _ _ h => nomatch h) ?_
      rintro _ ⟨⟩ - -
      exact ⟨by decide +kernel, by decide +kernel⟩
    have hshown : Unseen hidden l' later :=
      hunseen.move ⟨by decide +kernel, by decide +kernel, by decide +kernel⟩ _
        (fun _ _ h => nomatch h) fun _ h => nomatch h
    have hlater := hwaits hidden hhidden (by decide +kernel) hinvisible later hshown
      (by decide +kernel) (by decide +kernel) () hpoll
    exact hlater.2.2 ⟨by decide +kernel, by decide +kernel⟩

end FrameLoop

end FrameCache
