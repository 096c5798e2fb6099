import FrameCache.FrameLoop.Run
import FrameCache.Proofs.Windows
import Mathlib.Data.List.Induction

/-!
# The life of windows

A window is opened, shown from frame to frame, and closed in the first frame in which its surface
says that it should close: the frame does not draw it, and once the caches are swept forgets its
canvas and gives its context back.  The loop quits when a frame closes the last window, and then
for good.
-/

namespace FrameCache

/-! ### Opening and closing -/

/-- Where the window is that a move opens. -/
def Move.opened? : Move → Option (CanvasId × SurfaceId)
  | .addWindow c s => some (c, s)
  | _ => none

/-- The move closes the window: it is a frame of a loop that has not quit, and once the platform
has polled its events the surface of the window says that it should close. -/
def Move.closes (m : Move) (l : FrameLoop) (w : Window) : Bool :=
  match m with
  | .frame deeds => l.phase ≠ .quit && (l.polled deeds).wantsClose w
  | _ => false

/-- The surface whose context is given back. -/
def WindowCall.released? : WindowCall → Option SurfaceId
  | .released s => some s
  | _ => none

/-- The surfaces whose context was given back, the latest first. -/
def FrameLoop.released (l : FrameLoop) : List SurfaceId :=
  l.studio.host.log.windowCalls.filterMap WindowCall.released?

namespace Studio

variable {s : Studio} {c : CanvasId}

/-- Gives up the place of a window: its canvas is forgotten and its context given back. -/
def vacate (s : Studio) (p : CanvasId × SurfaceId) : Studio :=
  (s.forgetCanvas p.1).2.record (.contextReleased p.2)

/-- The canvas is not registered and nothing is mounted on it. -/
structure Forgotten (c : CanvasId) (s : Studio) : Prop where
  /-- The canvas is not registered. -/
  unregistered : s.inventory.isRegistered c = false
  /-- Nothing is mounted on the canvas. -/
  unmounted : ∀ o m, s.mounting? o = some m → m.value.canvas ≠ c

theorem registered_dropTexture (s : Studio) (o : ObjectId) :
  (s.dropTexture o).2.inventory.registered = s.inventory.registered
  := by
  rw [dropTexture_eq]

theorem registered_dismantle (s : Studio) (o : ObjectId) (expiredAt : Option Instant) :
  (s.dismantle o expiredAt).2.inventory.registered = s.inventory.registered
  := by
  cases h : s.lapsedRenderer o expiredAt with
  | none => rw [dismantle_of_none h]
  | some r => rw [dismantle_of_some h]

theorem registered_release (s : Studio) (o : ObjectId) (kind : ObjectKind)
    (expiredAt : Option Instant) :
  (s.release o kind expiredAt).2.inventory.registered = s.inventory.registered
  := by
  cases kind with
  | widget => apply registered_dismantle
  | plain => apply registered_dropTexture

theorem registered_forgetCanvas (s : Studio) (c : CanvasId) :
  (s.forgetCanvas c).2.inventory.registered = s.inventory.registered.filter (· ≠ c)
  := by
  apply Cache.visitAll_invariant (I := fun w : Nat × Studio =>
    w.2.inventory.registered = s.inventory.registered.filter (· ≠ c)) (fst_forgetObject c)
  · rintro o m ⟨n, s'⟩ h
    rw [forgetObject]
    dsimp only
    split
    · apply h
    · rw [registered_release]
      apply h
  · rfl

theorem forgotten_vacate (s : Studio) (p : CanvasId × SurfaceId) :
  (s.vacate p).Forgotten p.1
  := by
  constructor
  · apply decide_eq_false
    change p.1 ∉ (s.forgetCanvas p.1).2.inventory.registered
    rw [registered_forgetCanvas]
    simp
  · intro o m hm
    change (s.forgetCanvas p.1).2.mounting? o = some m at hm
    rw [mounting?_forgetCanvas] at hm
    simpa using (Option.filter_eq_some_iff.1 hm).2

theorem Forgotten.vacate (h : s.Forgotten c) (p : CanvasId × SurfaceId) :
  (s.vacate p).Forgotten c
  := by
  constructor
  · apply decide_eq_false
    intro hmem
    change c ∈ (s.forgetCanvas p.1).2.inventory.registered at hmem
    rw [registered_forgetCanvas] at hmem
    apply of_decide_eq_false h.unregistered
    apply (List.mem_filter.1 hmem).1
  · intro o m hm
    change (s.forgetCanvas p.1).2.mounting? o = some m at hm
    rw [mounting?_forgetCanvas] at hm
    apply h.unmounted o m
    apply (Option.filter_eq_some_iff.1 hm).1

/-- Once several places are given up their canvases are forgotten. -/
theorem forgotten_vacateAll {ps : List (CanvasId × SurfaceId)} {p : CanvasId × SurfaceId}
    (hp : p ∈ ps) (s : Studio) :
  (ps.foldl vacate s).Forgotten p.1
  := by
  obtain ⟨before, after, rfl⟩ := List.append_of_mem hp
  rw [List.foldl_append, List.foldl_cons]
  apply List.foldlRecOn (motive := Forgotten p.1)
  · apply forgotten_vacate
  · intro s' h p' _
    apply h.vacate

end Studio

namespace FrameLoop

variable {l : FrameLoop}

/-! ### The phase of a loop -/

theorem phase_restyle (l : FrameLoop) :
  l.restyle.phase = l.phase
  := undrawn_phase.restyle_eq l

theorem phase_polled (l : FrameLoop) (deeds : List Deed) :
  (l.polled deeds).phase = l.phase
  := by
  rw [polled]
  apply List.foldlRecOn (motive := fun l' : FrameLoop => l'.phase = l.phase)
  · rw [record, receiveAll]
    split
    · rfl
    · split
      · rfl
      · apply phase_restyle
  · intro l' h d _
    rw [← h]
    cases d <;> rfl

/-- A frame that closes windows and leaves none makes the loop quit; no other does. -/
theorem phase_finished (l : FrameLoop) :
  l.finished.phase = if l.swept.closing ≠ [] ∧ l.finished.windows = [] then .quit else l.phase
  := by
  have hphase : (l.swept.destroyAll l.swept.closing).phase = l.phase :=
    (undrawn_phase.destroyAll_eq _ _).trans (undrawn_phase.swept_eq l)
  have hwindows := windows_destroyAll l.swept l.swept.closing
  rw [l.finished_spec.2.2.2, ← hwindows, finished, closeWindows]
  dsimp only
  split
  · rename_i h
    rw [if_pos ⟨List.length_pos_iff.1 h.1, h.2⟩]
    rfl
  · rename_i h
    rw [if_neg fun h' => h ⟨List.length_pos_iff.2 h'.1, h'.2⟩]
    apply hphase

/-- A loop that has quit stays so. -/
theorem phase_play_of_quit (h : l.phase = .quit) (moves : List Move) :
  (l.play moves).phase = .quit
  := by
  apply play_invariant (I := fun l : FrameLoop => l.phase = .quit) _ h
  intro m _ l h
  cases m with
  | deed d => cases d <;> exact h
  | addWindow c s => exact h
  | forgetWalk c => exact h
  | listen => exact h
  | restyle =>
    rw [Move.run, phase_restyle]
    apply h
  | quit => rfl
  | frame deeds =>
    rw [Move.run, tick, if_pos h]
    apply h

/-! ### What a move does to the windows -/

theorem studio_destroyAll (l : FrameLoop) (ws : List Window) :
  (l.destroyAll ws).studio = (ws.map Window.place).foldl Studio.vacate l.studio
  := by
  induction ws generalizing l with
  | nil => rfl
  | cons w ws ih => apply ih

theorem Drawn.released_windowCalls (d : Drawn) (w : Window) (nodes : List (Node × Position))
    (swaps : Bool) :
  (d.windowCalls w nodes swaps).filterMap WindowCall.released? = []
  := by
  rw [List.filterMap_eq_nil_iff]
  intro call hcall
  cases d with
  | left => cases hcall
  | walked =>
    rw [List.mem_singleton.1 hcall]
    rfl
  | repainted =>
    simp only [Drawn.windowCalls, List.mem_append, List.mem_cons, List.mem_map] at hcall
    obtain (rfl | ⟨n, -, rfl⟩) | rfl | hswap := hcall
    · rfl
    · rfl
    · rfl
    · split at hswap
      · rw [List.mem_singleton.1 hswap]
        rfl
      · cases hswap

/-- Drawing gives no context back. -/
theorem released_calls {ds : List (Drawn × Window)} {calls : List (List WindowCall)}
    (h : List.Forall₂ l.Calls ds calls) :
  calls.flatten.filterMap WindowCall.released? = []
  := by
  induction h with
  | nil => rfl
  | cons hd _ ih =>
    obtain ⟨swaps, rfl⟩ := hd
    rw [List.flatten_cons, List.filterMap_append, ih, Drawn.released_windowCalls]
    rfl

theorem released_finished (l : FrameLoop) :
  l.finished.released = (l.swept.closing.map Window.surface).reverse ++ l.released
  := by
  obtain ⟨calls, hcalls, hlog⟩ := windowCalls_finished l
  have hclosing : (l.swept.closing.map fun w => WindowCall.released w.surface).filterMap
      WindowCall.released? = l.swept.closing.map Window.surface := by
    rw [List.filterMap_map]
    exact congrFun List.filterMap_eq_map _
  rw [released, hlog, List.filterMap_append, List.filterMap_append, List.filterMap_reverse,
    List.filterMap_reverse, released_calls hcalls, hclosing, List.reverse_nil, List.append_nil]
  rfl

/-- A move keeps the windows that it does not close, in their order, and perhaps opens one. -/
theorem places_run (h : l.Settled) (hn : (l.windows.map Window.surface).Nodup) (m : Move) :
  (m.run l).windows.map Window.place
    = (l.windows.filter fun w => !m.closes l w).map Window.place ++ m.opened?.toList
  := by
  have hkept : (l.windows.filter fun _ => !false).map Window.place ++ []
      = l.windows.map Window.place := by simp
  cases m with
  | deed d => cases d <;> exact hkept.symm
  | listen => exact hkept.symm
  | quit => exact hkept.symm
  | addWindow c s =>
    change (l.windows ++ [_]).map Window.place = _
    rw [List.map_append, ← hkept, List.append_nil]
    rfl
  | forgetWalk c => exact (l.map_forgetWalk (fun _ => rfl) c).trans hkept.symm
  | restyle =>
    rw [Move.run, windows_restyle]
    exact hkept.symm
  | frame deeds =>
    have hpolled := windows_polled l deeds
    rw [run_frame h.queue]
    split
    · rename_i hquit
      simp [Move.closes, Move.opened?, hquit]
    · rename_i hquit
      have hplaces := places_finished (h.polled deeds).shown (by rw [hpolled]; exact hn)
      rw [hplaces, hpolled]
      simp [Move.closes, Move.opened?, hquit]

/-- A move gives back the contexts of the windows that it closes. -/
theorem released_run (h : l.Settled) (hn : (l.windows.map Window.surface).Nodup) (m : Move) :
  (m.run l).released
    = ((l.windows.filter (m.closes l)).map Window.surface).reverse ++ l.released
  := by
  have hkept : l.released = ((l.windows.filter fun _ => false).map Window.surface).reverse
      ++ l.released := by simp
  cases m with
  | deed d => cases d <;> exact hkept
  | listen => exact hkept
  | quit => exact hkept
  | forgetWalk c => exact hkept
  | addWindow c s => exact hkept
  | restyle =>
    rw [Move.run, released, windowCalls_restyle]
    exact hkept
  | frame deeds =>
    have hpolled := windows_polled l deeds
    rw [run_frame h.queue]
    split
    · rename_i hquit
      simp [Move.closes, hquit]
    · rename_i hquit
      have hplaces := places_closing (h.polled deeds).shown (by rw [hpolled]; exact hn)
      have hsurfaces := congrArg (List.map Prod.snd) hplaces
      rw [List.map_map, List.map_map, hpolled] at hsurfaces
      rw [released_finished, released, windowCalls_polled]
      have hcloses : (Move.frame deeds).closes l = (l.polled deeds).wantsClose := by
        funext w
        simp [Move.closes, hquit]
      rw [hcloses]
      congr 2

/-! ### Runs -/

section

variable (layouts : Layouts) (config : Config) (policy : Policy)

/-- The surfaces of the windows ever opened are those of the windows that are left and those whose
context was given back. -/
theorem opened_perm {moves : List Move}
    (hn : ((moves.filterMap Move.opened?).map Prod.snd).Nodup) :
  let l := (ofConfig layouts config policy).play moves
  ((moves.filterMap Move.opened?).map Prod.snd).Perm
    (l.windows.map Window.surface ++ l.released)
  := by
  induction moves using List.reverseRecOn with
  | nil => exact List.Perm.refl _
  | append_singleton moves m ih =>
    rw [List.filterMap_append, List.map_append] at hn
    have hperm := ih (List.nodup_append.1 hn).1
    have hwindows := (List.nodup_append.1 (hperm.nodup_iff.1 (List.nodup_append.1 hn).1)).1
    have hsettled := settled_play layouts config policy moves
    have hplaces := congrArg (List.map Prod.snd) (places_run hsettled hwindows m)
    have hreleased := released_run hsettled hwindows m
    dsimp only at hperm ⊢
    rw [play_concat]
    generalize (ofConfig layouts config policy).play moves = l at *
    have hsplit := (List.filter_append_perm (m.closes l) l.windows).map Window.surface
    rw [List.map_append, List.map_map, List.map_map] at hplaces
    change (m.run l).windows.map Window.surface = (l.windows.filter _).map Window.surface ++ _
      at hplaces
    have hopened : [m].filterMap Move.opened? = m.opened?.toList := by
      cases h : m.opened? <;> simp [h]
    rw [hplaces, hreleased, List.filterMap_append, List.map_append, hopened, List.perm_iff_count]
    intro s
    have hcount := hperm.count_eq s
    have hcount' := hsplit.count_eq s
    simp only [List.map_append, List.count_append, List.count_reverse] at hcount hcount' ⊢
    omega

/-- The life of the windows of a loop, each with a surface of its own, after any moves.  Between
moves all windows are shown; the surfaces of the windows that are left and those whose context was
given back are, each once, those of the windows ever opened.  Any further move keeps the windows
that it does not close, in their order, and gives back the contexts of those that it closes.

A frame closes the windows whose surface says so when the platform has polled its events: it does
not draw them, after the sweep it forgets their canvases and gives their contexts back, and it
makes the loop quit just if there were such windows and none is left.  Once the loop has quit, it
stays so, frames leave everything as it is and no run begins. -/
theorem windows_close_once (moves : List Move) (deeds : List Deed)
    (hn : ((moves.filterMap Move.opened?).map Prod.snd).Nodup) :
  let l := (ofConfig layouts config policy).play moves
  let p := l.polled deeds
  let l' := (Move.frame deeds).run l
  let gone := l.windows.filter p.wantsClose
  (∀ w ∈ l.windows, w.state = .shown)
    ∧ ((moves.filterMap Move.opened?).map Prod.snd).Perm
      (l.windows.map Window.surface ++ l.released)
    ∧ (∀ m : Move, (m.run l).windows.map Window.place
        = (l.windows.filter fun w => !m.closes l w).map Window.place ++ m.opened?.toList
      ∧ (m.run l).released
        = ((l.windows.filter (m.closes l)).map Window.surface).reverse ++ l.released)
    ∧ (l.phase ≠ .quit →
      p.drawn.1.map (fun d => d.2.place) = l.windows.map Window.place
      ∧ (∀ d ∈ p.drawn.1, p.wantsClose d.2 → d.1 = .left)
      ∧ (∃ calls, List.Forall₂ p.Calls p.drawn.1 calls
        ∧ l'.studio.host.log.windowCalls
          = (gone.map fun w => WindowCall.released w.surface).reverse ++ calls.flatten.reverse
            ++ l.studio.host.log.windowCalls)
      ∧ l'.studio = (gone.map Window.place).foldl Studio.vacate p.swept.studio
      ∧ (∀ w ∈ gone, l'.studio.Forgotten w.canvas)
      ∧ l'.phase = if gone ≠ [] ∧ l'.windows = [] then .quit else l.phase)
    ∧ (l.phase = .quit →
      (∀ later, (l.play later).phase = .quit)
      ∧ (∀ {ε : Type} (poll : ε → FrameLoop → ε × FrameLoop) (e : ε),
        l.tick poll e = ({ phase := .quit }, e, l))
      ∧ l.enter? = none)
  := by
  intro l p l' gone
  have hsettled : l.Settled := settled_play layouts config policy moves
  have hperm := opened_perm layouts config policy hn
  have hsurfaces : (l.windows.map Window.surface).Nodup :=
    (List.nodup_append.1 (hperm.nodup_iff.1 hn)).1
  have hpolled : p.windows = l.windows := windows_polled l deeds
  have hpsettled : p.Settled := hsettled.polled deeds
  have hpsurfaces : (p.windows.map Window.surface).Nodup := by
    rw [hpolled]
    apply hsurfaces
  have hdrawn := places_drawn hpsettled.shown hpsurfaces
  have hclosing : p.swept.closing.map Window.place = gone.map Window.place := by
    rw [places_closing hpsettled.shown hpsurfaces, hpolled]
  refine ⟨hsettled.shown, hperm, ?_, ?_, ?_⟩
  · intro m
    exact ⟨places_run hsettled hsurfaces m, released_run hsettled hsurfaces m⟩
  · intro hphase
    have hl' : l' = p.finished := by
      change (Move.frame deeds).run l = _
      rw [run_frame hsettled.queue, if_neg hphase]
    have hstudio : l'.studio = (gone.map Window.place).foldl Studio.vacate p.swept.studio := by
      rw [hl', p.finished_spec.1, studio_destroyAll, hclosing]
    refine ⟨?_, ?_, ?_, hstudio, ?_, ?_⟩
    · have hplaces := congrArg (List.map Prod.fst) hdrawn
      rw [List.map_map, List.map_map, hpolled] at hplaces
      exact hplaces
    · intro d hd
      apply left_of_wantsClose hpsettled.shown hpsurfaces hd
    · obtain ⟨calls, hcalls, hlog⟩ := windowCalls_finished p
      have hreleased := congrArg (List.map fun q => WindowCall.released q.2) hclosing
      rw [List.map_map, List.map_map] at hreleased
      use calls, hcalls
      rw [hl', hlog, windowCalls_polled]
      congr 3
    · intro w hw
      have hplace : w.place ∈ gone.map Window.place := List.mem_map_of_mem hw
      rw [hstudio]
      exact Studio.forgotten_vacateAll hplace _
    · have hnone : p.swept.closing = [] ↔ gone = [] := by
        rw [← List.map_eq_nil_iff (f := Window.place), hclosing, List.map_eq_nil_iff]
      rw [hl', phase_finished, phase_polled]
      simp only [ne_eq, hnone]
  · intro hquit
    refine ⟨phase_play_of_quit hquit, ?_, ?_⟩
    · intro ε poll e
      rw [tick, if_pos hquit, hquit]
    · rw [enter?, hquit]
      rfl

end

/-- Of three windows, two of which show the same canvas, one is closed in a frame. -/
def oneOfThree : List Move :=
  [.addWindow ⟨1⟩ ⟨1⟩, .addWindow ⟨1⟩ ⟨2⟩, .addWindow ⟨2⟩ ⟨3⟩,
    .frame [.surface ⟨2⟩ { closing := true }]]

/-- The other two windows want to close. -/
def otherTwo : List Deed := [.surface ⟨3⟩ { closing := true }, .surface ⟨1⟩ { closing := true }]

theorem windows_close_once_oneOfThree :
  let l := (ofConfig .spread .standard .prompt).play oneOfThree
  let l' := (Move.frame otherTwo).run l
  l.windows.map Window.surface = [⟨1⟩, ⟨3⟩] ∧ l.released = [⟨2⟩] ∧ l.phase = .idle
    ∧ l'.released = [⟨3⟩, ⟨1⟩, ⟨2⟩] ∧ l'.studio.Forgotten ⟨1⟩ ∧ l'.phase = .quit
  := by
  intro l l'
  have hsurfaces : ((oneOfThree.filterMap Move.opened?).map Prod.snd).Nodup := by decide
  obtain ⟨-, -, hrun, hframe, -⟩ := windows_close_once .spread .standard .prompt oneOfThree otherTwo
    hsurfaces
  obtain ⟨-, -, -, -, hforgotten, hphase⟩ := hframe (by decide +kernel)
  have hreleased : l.released = [⟨2⟩] := by decide +kernel
  have hcloses : (l.windows.filter ((Move.frame otherTwo).closes l)).map Window.surface
      = [⟨1⟩, ⟨3⟩] := by decide +kernel
  refine ⟨by decide +kernel, hreleased, by decide +kernel, ?_, ?_, ?_⟩
  · dsimp only [l']
    rw [(hrun _).2, hcloses, hreleased]
    rfl
  · apply hforgotten { canvas := ⟨1⟩, surface := ⟨1⟩, walkedAt := some .epoch }
    decide +kernel
  · dsimp only [l']
    rw [hphase, if_pos (by decide +kernel)]

end FrameLoop

end FrameCache
