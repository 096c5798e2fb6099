import FrameCache.Proofs.Lifecycle
import Mathlib.Logic.Function.Iterate

/-!
# When windows are painted

An edit that takes effect marks its canvas, and so does a change of the settings while a window
shows the canvas; painting the canvas takes the mark off.  The `FrameLoop.history` of a canvas lists
its changes and the times when it was painted.  A canvas is due if it has changed since it was last
painted or was not painted at all, and a frame paints a window just if it does not close, is visible
and its canvas is due.
-/

namespace FrameCache

/-! ### Edits that take effect -/

/-- The edit takes effect: below a dead slot nothing is added, and a dead slot is not removed. -/
def Edit.takesEffect : Canvas → Edit → Bool
  | .scene s, .addChild parent _ _ => (s.node? parent).isSome
  | .scene s, .remove slot => (s.node? slot).isSome
  | .scene _, _ => true
  | .sheet _, _ => false

namespace Scene

theorem dirty_remove_of_live {s : Scene} {slot : Nat} (h : (s.node? slot).isSome) :
  (s.remove slot).dirty = true
  := by
  obtain ⟨n, hn⟩ := Option.isSome_iff_exists.1 h
  obtain ⟨depth, hdepth⟩ : ∃ depth, s.slots.size = depth + 1 := by
    apply Nat.exists_eq_succ_of_ne_zero
    intro hsize
    simp [node?, Array.size_eq_zero_iff.1 hsize] at hn
  rw [remove, hdepth, removeWithin, hn]
  rfl

end Scene

/-- An edit that takes no effect leaves the canvas as it is. -/
theorem Edit.run_of_not_takesEffect {c : Canvas} {e : Edit} (h : e.takesEffect c = false) :
  e.run c = c
  := by
  cases c with
  | sheet s => cases e <;> rfl
  | scene s =>
    cases e with
    | addChild parent n offset =>
      have hdead : s.node? parent = none := by simpa [takesEffect] using h
      rw [run, Scene.addChild, hdead]
    | remove slot =>
      have hdead : s.node? slot = none := by simpa [takesEffect] using h
      rw [run, Scene.remove_of_dead hdead]
    | addRoot n offset => cases h
    | invalidate o => cases h
    | setDirty => cases h

/-- Edits that take effect mark the canvas. -/
theorem Edit.isDirty_run (c : Canvas) (e : Edit) :
  (e.run c).isDirty = (e.takesEffect c || c.isDirty)
  := by
  cases h : e.takesEffect c with
  | false => rw [run_of_not_takesEffect h, Bool.false_or]
  | true =>
    cases c with
    | sheet s => cases h
    | scene s =>
      cases e with
      | addChild parent n offset =>
        obtain ⟨p, hp⟩ := Option.isSome_iff_exists.1 h
        rw [run, Scene.addChild, hp]
        rfl
      | remove slot => exact Scene.dirty_remove_of_live h
      | addRoot n offset => rfl
      | invalidate o => rfl
      | setDirty => rfl

theorem Canvas.isDirty_mark (c : Canvas) (dirty : Bool) :
  (c.mark dirty).isDirty = dirty
  := by
  cases c <;> rfl

/-! ### The history of a canvas -/

/-- What happens to a canvas.  Histories list the latest first. -/
inductive Happening where
  /-- It was edited, or the settings have changed while a window showed it. -/
  | changed
  /-- It was painted. -/
  | painted
deriving DecidableEq

namespace Happening

/-- The canvas has changed since it was last painted, or at all if it was not painted. -/
def Changed (hs : List Happening) : Prop := .changed ∈ hs.takeWhile (· ≠ .painted)

/-- The canvas was not painted yet, or has changed since. -/
def Due (hs : List Happening) : Prop := .painted ∉ hs ∨ Changed hs

instance (hs : List Happening) : Decidable (Changed hs) :=
  inferInstanceAs (Decidable (.changed ∈ hs.takeWhile (· ≠ .painted)))

instance (hs : List Happening) : Decidable (Due hs) :=
  inferInstanceAs (Decidable (.painted ∉ hs ∨ Changed hs))

variable {hs : List Happening}

theorem due_nil :
  Due []
  := Or.inl List.not_mem_nil

theorem due_changed (hs : List Happening) :
  Due (.changed :: hs)
  := by
  apply Or.inr
  simp [Changed]

theorem not_due_painted (hs : List Happening) :
  ¬ Due (.painted :: hs)
  := by
  simp [Due, Changed]

/-- A change is remembered until the canvas is painted. -/
theorem due_of_changed (h : .painted ∉ hs) (before : List Happening) :
  Due (hs ++ .changed :: before)
  := by
  apply Or.inr
  have hwhile : ∀ x ∈ hs, decide (x ≠ .painted) = true := by
    intro x hx
    apply decide_eq_true
    rintro rfl
    apply h hx
  rw [Changed, List.takeWhile_append_of_pos hwhile]
  simp

end Happening

/-- What a deed does to a canvas. -/
def Deed.happenings (l : FrameLoop) (c : CanvasId) : Deed → List Happening
  | .edit c' e => if c' = c ∧ e.takesEffect (l.canvas c) then [.changed] else []
  | _ => []

/-- The channel once all changes are received. -/
def Mailbox.received (m : Mailbox) : Mailbox := { m with pending := [] }

namespace FrameLoop

instance (l : FrameLoop) (c : CanvasId) : Decidable (l.Shows c) :=
  inferInstanceAs (Decidable (c ∈ l.windows.map Window.canvas))

/-- What deeds do to a canvas. -/
def deedHappenings (c : CanvasId) : FrameLoop → List Deed → List Happening
  | _, [] => []
  | l, d :: deeds => deedHappenings c (d.run l) deeds ++ d.happenings l c

/-- Some change of the settings has not been received. -/
def hasNews (l : FrameLoop) : Bool := l.settings.any fun m => !m.pending.isEmpty

/-- What happens to a canvas in a frame until the platform has polled its events. -/
def pollHappenings (l : FrameLoop) (deeds : List Deed) (c : CanvasId) : List Happening :=
  deedHappenings c (l.receiveAll.record .polled) deeds
    ++ if l.hasNews ∧ l.Shows c then [.changed] else []

/-- What happens to a canvas when windows are drawn. -/
def drawHappenings (c : CanvasId) (drawn : List (Drawn × Window)) : List Happening :=
  (drawn.reverse.filter fun d => d.1 = .repainted ∧ d.2.canvas = c).map fun _ => .painted

end FrameLoop

/-- What a move does to a canvas. -/
def Move.happenings (l : FrameLoop) (c : CanvasId) : Move → List Happening
  | .deed d => d.happenings l c
  | .restyle => if l.Shows c then [.changed] else []
  | .frame deeds =>
    if l.phase = .quit then []
    else FrameLoop.drawHappenings c (l.polled deeds).drawn.1 ++ l.pollHappenings deeds c
  | _ => []

namespace FrameLoop

variable {l : FrameLoop} {c : CanvasId} {hs : List Happening}

/-- What has happened to a canvas in the course of moves. -/
def history (c : CanvasId) : FrameLoop → List Move → List Happening
  | _, [] => []
  | l, m :: moves => history c (m.run l) moves ++ m.happenings l c

theorem history_append (c : CanvasId) (l : FrameLoop) (moves moves' : List Move) :
  history c l (moves ++ moves') = history c (l.play moves) moves' ++ history c l moves
  := by
  induction moves generalizing l with
  | nil => rw [history, List.append_nil]; rfl
  | cons m moves ih =>
    rw [List.cons_append, history, history, ih, List.append_assoc]
    rfl

/-! ### Going over the windows -/

/-- Does something to the canvas of every window, one after the other. -/
def overWindows (l : FrameLoop) (f : Canvas → Canvas) : FrameLoop :=
  l.windows.foldl (fun l w => l.setCanvas w.canvas (f (l.canvas w.canvas))) l

/-- It is done as often to a canvas as there are windows that show it. -/
theorem canvas_overWindows (l : FrameLoop) (f : Canvas → Canvas) (c : CanvasId) :
  (l.overWindows f).canvas c = f^[(l.windows.map Window.canvas).count c] (l.canvas c)
  := by
  rw [overWindows]
  generalize l.windows = ws
  induction ws generalizing l with
  | nil => rfl
  | cons w ws ih =>
    rw [List.foldl_cons, ih, canvas_setCanvas, List.map_cons, List.count_cons]
    split
    · rename_i hc
      rw [hc, if_pos (beq_self_eq_true _), Function.iterate_succ_apply]
    · rename_i hc
      rw [if_neg (by simpa using Ne.symm hc), Nat.add_zero]

theorem overWindows_eq (l : FrameLoop) (f : Canvas → Canvas) :
  l.overWindows f = { l with canvases := (l.overWindows f).canvases }
  := by
  rw [overWindows]
  apply List.foldlRecOn (motive := fun l' : FrameLoop => l' = { l with canvases := l'.canvases })
  · rfl
  · intro l' h w _
    rw [setCanvas, h]

/-! ### The mark of a canvas tells whether it is due -/

/-- The canvas is marked just if it is due, given its history. -/
def Marks (c : CanvasId) (l : FrameLoop) (hs : List Happening) : Prop :=
  (l.canvas c).isDirty = true ↔ Happening.Due hs

theorem Marks.of_canvas_eq {l' : FrameLoop} (h : Marks c l hs) (hc : l'.canvas c = l.canvas c) :
  Marks c l' hs
  := by
  rw [Marks, hc]
  apply h

/-- A canvas that is marked is due, even if nothing is known of its history. -/
theorem marks_nil (h : (l.canvas c).isDirty = true) :
  Marks c l []
  := ⟨fun _ => Happening.due_nil, fun _ => h⟩

/-- A change marks the canvas. -/
theorem Marks.changed {l' : FrameLoop} (h : Marks c l hs) {changes : Bool}
    (hc : (l'.canvas c).isDirty = (changes || (l.canvas c).isDirty)) :
  Marks c l' ((if changes then [.changed] else []) ++ hs)
  := by
  rw [Marks, hc]
  cases changes with
  | true => simpa using Happening.due_changed hs
  | false => simpa using! h

theorem Marks.deed (h : Marks c l hs) (d : Deed) :
  Marks c (d.run l) (d.happenings l c ++ hs)
  := by
  cases d with
  | edit c' e =>
    have hchanges : ((Deed.edit c' e).run l |>.canvas c).isDirty
        = (decide (c' = c ∧ e.takesEffect (l.canvas c)) || (l.canvas c).isDirty) := by
      rw [Deed.run, canvas_setCanvas]
      by_cases hc : c = c'
      · rw [if_pos hc, hc, Edit.isDirty_run]
        simp
      · rw [if_neg hc]
        simp [Ne.symm hc]
    simpa [Deed.happenings] using h.changed hchanges
  | _ => exact h

theorem Marks.deeds (h : Marks c l hs) (deeds : List Deed) :
  Marks c (deeds.foldl Deed.run l) (deedHappenings c l deeds ++ hs)
  := by
  induction deeds generalizing l hs with
  | nil => exact h
  | cons d deeds ih =>
    rw [deedHappenings, List.append_assoc]
    apply ih (h.deed d)

theorem isDirty_restyle (l : FrameLoop) (c : CanvasId) :
  (l.restyle.canvas c).isDirty = (decide (l.Shows c) || (l.canvas c).isDirty)
  := by
  let ready : FrameLoop := { l with
    studio := (l.studio.record .fontCacheCleared).update fun i _ => i.forgetTheme }
  have hcanvas : l.restyle.canvas c
      = Canvas.restyle^[(l.windows.map Window.canvas).count c] (l.canvas c) :=
    ready.canvas_overWindows Canvas.restyle c
  rw [hcanvas]
  cases hcount : (l.windows.map Window.canvas).count c with
  | zero =>
    have hshows : ¬ l.Shows c := List.count_eq_zero.1 hcount
    rw [decide_eq_false hshows]
    rfl
  | succ n =>
    have hshows : l.Shows c := List.count_pos_iff.1 (by omega)
    rw [decide_eq_true hshows, Bool.true_or, Function.iterate_succ_apply']
    exact Canvas.isDirty_mark _ true

theorem Marks.restyle (h : Marks c l hs) :
  Marks c l.restyle ((if l.Shows c then [.changed] else []) ++ hs)
  := by
  simpa using h.changed (isDirty_restyle l c)

theorem receiveAll_of_hasNews_eq_false (h : l.hasNews = false) :
  l.receiveAll = l
  := by
  rw [receiveAll]
  split
  · rfl
  · rename_i m hm
    rw [hasNews, hm, Option.any_some, Bool.not_eq_false'] at h
    rw [if_pos h]

theorem receiveAll_of_hasNews (h : l.hasNews = true) :
  l.receiveAll
    = { l with settings := l.settings.map Mailbox.received }.restyle
  := by
  rw [receiveAll]
  split
  · rename_i hm
    rw [hasNews, hm] at h
    cases h
  · rename_i m hm
    rw [hasNews, hm, Option.any_some, Bool.not_eq_true'] at h
    rw [if_neg (ne_true_of_eq_false h), hm]
    rfl

/-- Receiving changes of the settings marks the canvases that windows show. -/
theorem isDirty_receiveAll (l : FrameLoop) (c : CanvasId) :
  (l.receiveAll.canvas c).isDirty
    = (decide (l.hasNews = true ∧ l.Shows c) || (l.canvas c).isDirty)
  := by
  cases h : l.hasNews with
  | false =>
    rw [receiveAll_of_hasNews_eq_false h]
    simp
  | true =>
    rw [receiveAll_of_hasNews h, isDirty_restyle]
    simp [Shows, canvas]

theorem Marks.polled (h : Marks c l hs) (deeds : List Deed) :
  Marks c (l.polled deeds) (l.pollHappenings deeds c ++ hs)
  := by
  have hreceive := h.changed (isDirty_receiveAll l c)
  rw [pollHappenings, List.append_assoc]
  apply Marks.deeds (l := l.receiveAll.record .polled)
  simpa using! hreceive

/-! ### Drawing -/

theorem fst_takeRepaint (l : FrameLoop) (w : Window) :
  (l.takeRepaint w).1 = (l.isVisible w && (l.canvas w.canvas).isDirty)
  := by
  have hask : (l.askVisible w.surface).1 = l.isVisible w := rfl
  rw [takeRepaint]
  split
  · rename_i h
    rw [← hask, h]
    rfl
  · rename_i l₀ h
    have hcanvas : l₀.canvas w.canvas = l.canvas w.canvas := by
      rw [show l₀ = (l.askVisible w.surface).2 by rw [h]]
      rfl
    rw [← hask, h, ← hcanvas]
    rfl

/-- Looking whether the canvas of a window has to be painted takes off the mark of a canvas just
if it has. -/
theorem isDirty_takeRepaint (l : FrameLoop) (w : Window) (c : CanvasId) :
  ((l.takeRepaint w).2.canvas c).isDirty
    = if (l.takeRepaint w).1 = true ∧ w.canvas = c then false else (l.canvas c).isDirty
  := by
  rw [takeRepaint]
  split
  · rename_i l₀ h
    have hcanvas : l₀.canvas c = l.canvas c := by
      rw [show l₀ = (l.askVisible w.surface).2 by rw [h]]
      rfl
    rw [hcanvas, if_neg (by simp)]
  · rename_i l₀ h
    have hcanvas : ∀ c, l₀.canvas c = l.canvas c := by
      intro c
      rw [show l₀ = (l.askVisible w.surface).2 by rw [h]]
      rfl
    change ((l₀.setCanvas w.canvas ((l₀.canvas w.canvas).mark false)).canvas c).isDirty
      = if (l₀.canvas w.canvas).isDirty = true ∧ w.canvas = c then false else _
    rw [canvas_setCanvas, hcanvas, hcanvas]
    split
    · rename_i hc
      rw [Canvas.isDirty_mark, ← hc]
      cases (l.canvas c).isDirty <;> simp
    · rename_i hc
      rw [if_neg fun h => hc h.2.symm]

theorem isDirty_repaint (l : FrameLoop) (w : Window) (c : CanvasId) :
  ((l.repaint w).canvas c).isDirty = (l.canvas c).isDirty
  := by
  have hstale : ∀ state : Canvas, state.takeStaleTextures.2.isDirty = state.isDirty := by
    intro state
    cases state <;> rfl
  rw [repaint_eq]
  dsimp only
  rw [canvas_showPainted]
  change ((l.setCanvas w.canvas (l.canvas w.canvas).takeStaleTextures.2).canvas c).isDirty = _
  rw [canvas_setCanvas]
  split
  · rename_i hc
    rw [hstale, hc]
  · rfl

/-- A window is painted just if it does not close, is visible and its canvas is marked. -/
theorem fst_drawWindow_eq_repainted_iff (now : Instant) (w : Window) (l : FrameLoop) :
  (drawWindow now w l).1.1 = .repainted
    ↔ w.state ≠ .closing ∧ l.isVisible w = true ∧ (l.canvas w.canvas).isDirty = true
  := by
  have htake := fst_takeRepaint l w
  rw [drawWindow]
  split
  · rename_i hclosing
    simp [hclosing]
  · rename_i hclosing
    split
    · rename_i l₀ h
      rw [h, eq_comm, Bool.and_eq_true] at htake
      simp [hclosing, htake]
    · rename_i l₀ h
      rw [h, eq_comm, ← Bool.not_eq_true, Bool.and_eq_true] at htake
      split
      · simp [htake]
      · simp [htake]

/-- Drawing a window takes off the mark of a canvas just if it paints the canvas. -/
theorem isDirty_drawWindow (now : Instant) (w : Window) (l : FrameLoop) (c : CanvasId) :
  ((drawWindow now w l).2.canvas c).isDirty
    = if (drawWindow now w l).1.1 = .repainted ∧ w.canvas = c then false
      else (l.canvas c).isDirty
  := by
  have hdirty := isDirty_takeRepaint l w c
  rw [drawWindow]
  split
  · simp
  · split
    · rename_i l₀ h
      rw [h] at hdirty
      rw [isDirty_repaint, hdirty]
      simp
    · rename_i l₀ h
      rw [h, if_neg (by simp)] at hdirty
      split
      · rw [if_neg (by simp)]
        exact hdirty
      · rw [if_neg (by simp)]
        exact hdirty

theorem drawHappenings_cons (c : CanvasId) (d : Drawn × Window) (ds : List (Drawn × Window)) :
  drawHappenings c (d :: ds)
    = drawHappenings c ds ++ if d.1 = .repainted ∧ d.2.canvas = c then [.painted] else []
  := by
  rw [drawHappenings, List.reverse_cons, List.filter_append, List.map_append]
  by_cases hp : d.1 = .repainted ∧ d.2.canvas = c
  · simp [drawHappenings, hp]
  · simp [drawHappenings, hp]

theorem drawHappenings_eq_nil {drawn : List (Drawn × Window)}
    (h : ∀ d ∈ drawn, d.1 = .repainted → d.2.canvas ≠ c) :
  drawHappenings c drawn = []
  := by
  rw [drawHappenings, List.map_eq_nil_iff, List.filter_eq_nil_iff]
  intro d hd hpainted
  obtain ⟨hpainted, hc⟩ := of_decide_eq_true hpainted
  exact h d (List.mem_reverse.1 hd) hpainted hc

theorem Marks.drawWindow (h : Marks c l hs) (now : Instant) (w : Window) :
  Marks c (drawWindow now w l).2 ((if (drawWindow now w l).1.1 = .repainted
    ∧ (drawWindow now w l).1.2.canvas = c then [.painted] else []) ++ hs)
  := by
  have hdirty := isDirty_drawWindow now w l c
  rw [Marks, hdirty, (draws_drawWindow now w l).canvas_eq]
  split
  · simp [Happening.not_due_painted]
  · apply h

theorem Marks.drawAll (h : Marks c l hs) (now : Instant) (ws : List Window) :
  Marks c (drawAll now ws l).2 (drawHappenings c (drawAll now ws l).1 ++ hs)
  := by
  induction ws generalizing l hs with
  | nil => exact h
  | cons w ws ih =>
    rw [drawAll_cons, drawHappenings_cons, List.append_assoc]
    apply ih (h.drawWindow now w)

theorem Marks.animated (h : Marks c l hs) :
  Marks c l.animated hs
  := h.of_canvas_eq (canvas_pollClosing l.windows l c)

theorem Marks.finished (h : Marks c l hs) :
  Marks c l.finished (drawHappenings c l.drawn.1 ++ hs)
  := by
  have hdrawn := h.animated.drawAll l.markClosing.studio.now l.animated.windows
  exact hdrawn.of_canvas_eq (canvas_finished l c)

/-! ### Runs -/

theorem Marks.run (h : Marks c l hs) (hq : l.queue = []) (m : Move) :
  Marks c (m.run l) (m.happenings l c ++ hs)
  := by
  cases m with
  | deed d => apply h.deed d
  | restyle => apply h.restyle
  | frame deeds =>
    rw [run_frame hq, Move.happenings]
    split
    · apply h
    · rw [List.append_assoc]
      apply (h.polled deeds).finished
  | _ => exact h

theorem marks_play (layouts : Layouts) (config : Config) (policy : Policy) (moves : List Move)
    (c : CanvasId) :
  Marks c ((ofConfig layouts config policy).play moves)
    (history c (ofConfig layouts config policy) moves)
  := by
  induction moves using List.reverseRecOn with
  | nil => exact marks_nil rfl
  | append_singleton moves m ih =>
    rw [play_concat, history_append]
    apply ih.run (settled_play layouts config policy moves).queue m

/-- A window among those drawn was drawn after those before it. -/
theorem exists_drawWindow_of_append {now : Instant} {ws : List Window} {l : FrameLoop}
    {earlier later : List (Drawn × Window)} {d : Drawn × Window}
    (h : (drawAll now ws l).1 = earlier ++ d :: later) :
  ∃ before w after, ws = before ++ w :: after ∧ (drawAll now before l).1 = earlier
    ∧ d = (drawWindow now w (drawAll now before l).2).1
  := by
  induction ws generalizing l earlier with
  | nil => simp [drawAll] at h
  | cons w ws ih =>
    rw [drawAll_cons] at h
    cases earlier with
    | nil =>
      obtain ⟨hd, -⟩ := List.cons.inj h
      exact ⟨[], w, ws, rfl, rfl, hd.symm⟩
    | cons e earlier =>
      obtain ⟨he, hrest⟩ := List.cons.inj h
      obtain ⟨before, w', after, hws, hearlier, hd⟩ := ih hrest
      use w :: before, w', after
      rw [drawAll_cons, hws, he, hearlier]
      exact ⟨rfl, rfl, hd⟩

theorem surface_drawAll_of_notMem (now : Instant) {ws : List Window} {s : SurfaceId}
    (h : s ∉ ws.map Window.surface) (l : FrameLoop) :
  (drawAll now ws l).2.surface s = l.surface s
  := by
  apply drawAll_invariant (I := fun l' => l'.surface s = l.surface s)
  · intro w hw l' hl'
    have hne : s ≠ w.surface := by
      rintro rfl
      apply h (List.mem_map_of_mem hw)
    rw [surface_drawWindow_of_ne now l' hne, hl']
  · rfl

/-- In a loop whose windows have surfaces of their own, a window is painted just if it does not want
to close, is visible and its canvas is due when it is drawn. -/
theorem eq_repainted_iff_of_marks (h : ∀ w ∈ l.windows, w.state = .shown)
    (hn : (l.windows.map Window.surface).Nodup)
    {earlier later : List (Drawn × Window)} {d : Drawn × Window}
    (hd : l.drawn.1 = earlier ++ d :: later) (hm : Marks d.2.canvas l hs) :
  d.1 = .repainted ↔ l.wantsClose d.2 = false ∧ l.isVisible d.2 = true
    ∧ Happening.Due (drawHappenings d.2.canvas earlier ++ hs)
  := by
  let now := l.markClosing.studio.now
  have hall : (drawAll now l.animated.windows l.animated).1 = earlier ++ d :: later := hd
  obtain ⟨before, w, after, hws, rfl, rfl⟩ := exists_drawWindow_of_append hall
  have hdraws := draws_drawWindow now w (drawAll now before l.animated).2
  rw [hdraws.canvas_eq] at hm ⊢
  have hdue := hm.animated.drawAll now before
  have hstate : w.state ≠ .closing ↔ l.wantsClose w = false := by
    rw [Ne, state_of_mem_animated h hn (by rw [hws]; simp), Bool.not_eq_true]
  -- The surface of the window is not asked for the windows before it.
  have hnot : w.surface ∉ before.map Window.surface := by
    rw [← surfaces_animated h hn, hws, List.map_append, List.map_cons] at hn
    intro hmem
    apply (List.nodup_append.1 hn).2.2 _ hmem _ List.mem_cons_self rfl
  have hvisible : (drawAll now before l.animated).2.isVisible w = l.isVisible w := by
    rw [isVisible, surface_drawAll_of_notMem now hnot]
    apply isVisible_animated
  rw [fst_drawWindow_eq_repainted_iff, hvisible, hstate, wantsClose_congr hdraws.surface_eq,
    isVisible_congr hdraws.surface_eq]
  apply and_congr_right
  intro _
  apply and_congr_right
  intro _
  apply hdue

section

variable (layouts : Layouts) (config : Config) (policy : Policy)

/-- Whatever was done to a new loop whose windows have surfaces of their own, the next frame paints
a window just if the loop has not quit, the window does not close, is visible and its canvas is due:
it was not painted yet or has changed since, through whichever window.  A canvas that is painted is
painted once and as a whole; the others are walked at most once.  Edits that take no effect change
no canvas, and one that does is remembered until the canvas is painted. -/
theorem repainted_iff_due (moves : List Move) (deeds : List Deed)
    (hn : ((moves.filterMap Move.opened?).map Prod.snd).Nodup) :
  let start := ofConfig layouts config policy
  let l := start.play moves
  let p := l.polled deeds
  let l' := (Move.frame deeds).run l
  (l.phase = .quit → l' = l)
    ∧ (l.phase ≠ .quit →
      p.drawn.1.map (fun d => d.2.place) = l.windows.map Window.place
      ∧ (∀ earlier d later, p.drawn.1 = earlier ++ d :: later →
        (d.1 = .repainted ↔ p.wantsClose d.2 = false ∧ p.isVisible d.2 = true
          ∧ Happening.Due (drawHappenings d.2.canvas earlier
            ++ (l.pollHappenings deeds d.2.canvas ++ history d.2.canvas start moves))))
      ∧ ∃ calls, List.Forall₂ p.Calls p.drawn.1 calls
        ∧ l'.studio.host.log.windowCalls
          = (p.swept.closing.map fun w => WindowCall.released w.surface).reverse
            ++ calls.flatten.reverse ++ l.studio.host.log.windowCalls)
    ∧ (∀ c e, e.takesEffect (l.canvas c) = false →
      ∀ c', ((Deed.edit c e).run l).canvas c' = l.canvas c')
    ∧ (∀ before c e after, moves = before ++ .deed (.edit c e) :: after →
      e.takesEffect ((start.play before).canvas c) = true →
      .painted ∉ history c ((Deed.edit c e).run (start.play before)) after →
      Happening.Due (history c start moves))
  := by
  intro start l p l'
  have hsettled : l.Settled := settled_play layouts config policy moves
  have hperm := opened_perm layouts config policy hn
  have hsurfaces : (p.windows.map Window.surface).Nodup := by
    rw [windows_polled]
    exact (List.nodup_append.1 (hperm.nodup_iff.1 hn)).1
  refine ⟨?_, ?_, ?_, ?_⟩
  · intro hquit
    change (Move.frame deeds).run l = l
    rw [run_frame hsettled.queue, if_pos hquit]
  · intro hphase
    have hl' : l' = p.finished := by
      change (Move.frame deeds).run l = _
      rw [run_frame hsettled.queue, if_neg hphase]
    refine ⟨?_, ?_, ?_⟩
    · have hplaces := congrArg (List.map Prod.fst)
        (places_drawn (hsettled.polled deeds).shown hsurfaces)
      rw [List.map_map, List.map_map, windows_polled] at hplaces
      exact hplaces
    · intro earlier d later hd
      apply eq_repainted_iff_of_marks (hsettled.polled deeds).shown hsurfaces hd
      apply (marks_play layouts config policy moves d.2.canvas).polled
    · obtain ⟨calls, hcalls, hlog⟩ := windowCalls_finished p
      use calls, hcalls
      rw [hl', hlog, windowCalls_polled]
  · intro c e he c'
    rw [Deed.run, canvas_setCanvas, Edit.run_of_not_takesEffect he]
    split
    · rename_i hc
      rw [hc]
    · rfl
  · rintro before c e after rfl he hafter
    have hchanged : (Move.deed (.edit c e)).happenings (start.play before) c = [.changed] :=
      if_pos ⟨rfl, he⟩
    rw [history_append, history, hchanged, List.append_assoc]
    exact Happening.due_of_changed hafter _

end

/-- A window is painted and then hidden; its scene is edited, with effect and without. -/
def editedWhileHidden : List Move :=
  [.addWindow ⟨1⟩ ⟨1⟩, .frame [], .deed (.surface ⟨1⟩ { visible := false }),
    .deed (.edit ⟨1⟩ (.addRoot (.plain ⟨10⟩) .origin)), .frame [],
    .deed (.edit ⟨1⟩ (.addChild 7 (.plain ⟨11⟩) .origin))]

theorem repainted_iff_due_editedWhileHidden :
  let start := ofConfig .spread .standard .prompt
  let l := start.play editedWhileHidden
  let p := l.polled [.surface ⟨1⟩ {}]
  let w : Window := { canvas := ⟨1⟩, surface := ⟨1⟩, walkedAt := some .epoch }
  (l.polled []).drawn.1 = [(.left, w)] ∧ history ⟨1⟩ start editedWhileHidden = [.changed, .painted]
    ∧ p.drawn.1 = [(.repainted, w)] ∧ p.isVisible w = true
    ∧ Happening.Due (l.pollHappenings [.surface ⟨1⟩ {}] ⟨1⟩ ++ history ⟨1⟩ start editedWhileHidden)
  := by
  intro start l p w
  have hdrawn : p.drawn.1 = [] ++ (.repainted, w) :: [] := by decide +kernel
  obtain ⟨-, hframe, -, -⟩ := repainted_iff_due .spread .standard .prompt editedWhileHidden
    [.surface ⟨1⟩ {}] (by decide)
  obtain ⟨-, hiff, -⟩ := hframe (by decide +kernel)
  obtain ⟨-, hvisible, hdue⟩ := (hiff [] (.repainted, w) [] hdrawn).1 rfl
  rw [drawHappenings, List.reverse_nil, List.filter_nil, List.map_nil, List.nil_append] at hdue
  exact ⟨by decide +kernel, by decide +kernel, hdrawn, hvisible, hdue⟩

/-- It is not the changes since a window was last painted alone that decide whether it is painted: a
new scene is painted without any change, a scene that two windows show is painted through the first
of them only, and nothing is painted once the loop has quit. -/
theorem repaints_differ_from_changes :
  let start := ofConfig .spread .standard .prompt
  let new : List Move := [.addWindow ⟨1⟩ ⟨1⟩]
  let shared : List Move :=
    [.addWindow ⟨1⟩ ⟨1⟩, .addWindow ⟨1⟩ ⟨2⟩, .deed (.edit ⟨1⟩ .setDirty)]
  let stopped : List Move := [.addWindow ⟨1⟩ ⟨1⟩, .deed (.edit ⟨1⟩ .setDirty), .quit]
  (let p := (start.play new).polled []
    ∃ d ∈ p.drawn.1, ¬ (d.1 = .repainted ↔ p.wantsClose d.2 = false ∧ p.isVisible d.2 = true
      ∧ Happening.Changed (history d.2.canvas start new)))
    ∧ (let p := (start.play shared).polled []
      ∃ d ∈ p.drawn.1, ¬ (d.1 = .repainted ↔ p.wantsClose d.2 = false ∧ p.isVisible d.2 = true
        ∧ Happening.Changed (history d.2.canvas start shared)))
    ∧ (let l := start.play stopped
      ((Move.frame []).run l).studio.host.log.events.length = 0
        ∧ ∀ w ∈ l.windows, l.wantsClose w = false ∧ l.isVisible w = true
          ∧ Happening.Changed (history w.canvas start stopped))
  := by
  decide +kernel

end FrameLoop

end FrameCache
