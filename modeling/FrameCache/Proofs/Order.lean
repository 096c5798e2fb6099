import FrameCache.Proofs.Frames
import FrameCache.Proofs.Readings
import FrameCache.Proofs.Upkeep

/-!
# Orderly frame loops

While a studio is idle, only its values and its clock change and only calls that concern no
resource are made.  All that the environment does to a frame loop, and all that a frame does
before it draws, leaves the studio idle.

In an orderly frame loop the studio is regular and sound, what it holds belongs to the canvases
that are shown, and every node is drawn as the kind of its object.  Every move keeps a loop
orderly.
-/

namespace FrameCache

/-! ### Idle studios -/

namespace Studio

variable {s s' s'' : Studio}

/-- From `s` to `s'` no resource is touched and only plain calls are made. -/
structure Idles (s s' : Studio) : Prop where
  /-- The configuration is the same. -/
  config : s'.inventory.config = s.inventory.config
  /-- The mountings are the same. -/
  mountings : s'.inventory.mountings = s.inventory.mountings
  /-- The renderers are the same. -/
  renderers : s'.inventory.renderers = s.inventory.renderers
  /-- The textures are the same. -/
  textures : s'.inventory.textures = s.inventory.textures
  /-- The host behaves the same. -/
  policy : s'.host.policy = s.host.policy
  /-- No renderer is created. -/
  created : s'.host.log.renderers = s.host.log.renderers
  /-- All calls are plain. -/
  calls : ∃ calls, s'.host.log.calls = calls ++ s.host.log.calls
    ∧ ∀ c ∈ calls, c.event.IsPlain

namespace Idles

theorem refl (s : Studio) :
  Idles s s
  := ⟨rfl, rfl, rfl, rfl, rfl, rfl, [], rfl, by simp⟩

theorem trans (h : Idles s s') (h' : Idles s' s'') :
  Idles s s''
  := by
  obtain ⟨cs, hcs, hp⟩ := h.calls
  obtain ⟨cs', hcs', hp'⟩ := h'.calls
  constructor
  · rw [h'.config, h.config]
  · rw [h'.mountings, h.mountings]
  · rw [h'.renderers, h.renderers]
  · rw [h'.textures, h.textures]
  · rw [h'.policy, h.policy]
  · rw [h'.created, h.created]
  · use cs' ++ cs
    constructor
    · rw [hcs', hcs, List.append_assoc]
    · intro c hc
      rcases List.mem_append.1 hc with hc | hc
      · apply hp' c hc
      · apply hp c hc

theorem record (s : Studio) {e : Event} (he : e.IsPlain) :
  Idles s (s.record e)
  := by
  refine ⟨rfl, rfl, rfl, rfl, rfl, ?_, ?_⟩
  · cases e <;> first | rfl | exact he.elim
  · use [⟨e, (s.record e).now⟩], rfl
    simpa using he

theorem atTime (s : Studio) (t : Instant) :
  Idles s (s.atTime t)
  := ⟨rfl, rfl, rfl, rfl, rfl, rfl, [], rfl, by simp⟩

theorem extends_log (h : Idles s s') :
  Log.Extends s.host.log s'.host.log
  := by
  obtain ⟨calls, hcalls, -⟩ := h.calls
  use calls, hcalls

theorem regular {c : Config} (h : Idles s s') (hr : s.Regular c) :
  s'.Regular c
  := by
  constructor
  · rw [h.config, hr.config]
  · rw [h.mountings, hr.mountings]
  · rw [h.renderers, hr.renderers]
  · rw [h.textures, hr.textures]
  · intro o t ht
    rw [texture?, h.textures] at ht
    apply hr.lasting o t ht

theorem sound {kind : ObjectId → ObjectKind} {shown : CanvasId → Prop} (h : Idles s s')
    (hs : s.Sound kind shown) :
  s'.Sound kind shown
  := hs.of_entries h.mountings h.renderers h.textures

/-- An account that plain calls do not enter is unchanged. -/
theorem filterMap_events {α : Type} {f : Event → Option α} (h : Idles s s')
    (hf : ∀ e : Event, e.IsPlain → f e = none) :
  s'.host.log.events.filterMap f = s.host.log.events.filterMap f
  := by
  obtain ⟨calls, hcalls, hp⟩ := h.calls
  have hnone : (calls.map Call.event).filterMap f = [] := by
    rw [List.filterMap_eq_nil_iff]
    intro e he
    obtain ⟨c, hc, rfl⟩ := List.mem_map.1 he
    apply hf _ (hp c hc)
  rw [Log.events, hcalls, List.map_append, List.filterMap_append, hnone]
  rfl

theorem balanced (h : Idles s s') (hb : s.holdings.Balanced) :
  s'.holdings.Balanced
  := by
  have hcreated : s'.host.log.created = s.host.log.created :=
    h.filterMap_events fun _ he => he.accounts.1
  have hdestroyed : s'.host.log.destroyed = s.host.log.destroyed :=
    h.filterMap_events fun _ he => he.accounts.2.1
  have hreleased : s'.host.log.released = s.host.log.released :=
    h.filterMap_events fun _ he => he.accounts.2.2.1
  constructor
  · change s'.host.log.created.map _ = (List.range' 1 s'.host.log.renderers).reverse
    rw [hcreated, h.created]
    apply hb.numbered
  · intro o r
    change s'.host.log.created.count _ = s'.host.log.destroyed.count _
      + (s'.inventory.renderers.resident o).toList.count r
    rw [hcreated, hdestroyed, h.renderers]
    apply hb.renderers
  · change s'.host.log.released = s'.host.log.destroyed.map _
    rw [hreleased, hdestroyed]
    apply hb.released

theorem texturesBalanced (h : Idles s s') (hb : s.holdings.TexturesBalanced) :
  s'.holdings.TexturesBalanced
  := by
  have huploaded : s'.host.log.uploaded = s.host.log.uploaded :=
    h.filterMap_events fun _ he => he.accounts.2.2.2.1
  have hdeleted : s'.host.log.deleted = s.host.log.deleted :=
    h.filterMap_events fun _ he => he.accounts.2.2.2.2
  intro o t
  change s'.host.log.uploaded.count _ = s'.host.log.deleted.count _
    + (s'.inventory.textures.resident o).toList.count t
  rw [huploaded, hdeleted, h.textures]
  apply hb

end Idles

end Studio

namespace FrameLoop

variable {l l' : FrameLoop}

/-! ### What leaves the studio idle -/

theorem restyle_spec (l : FrameLoop) :
  SameScenes l l.restyle ∧ Studio.Idles l.studio l.restyle.studio
  := by
  rw [restyle]
  apply List.foldlRecOn (motive := fun l' =>
    SameScenes l l' ∧ Studio.Idles l.studio l'.studio)
  · constructor
    · exact ⟨rfl, rfl, fun _ => rfl⟩
    · apply (Studio.Idles.record l.studio (e := .fontCacheCleared) trivial).trans
      exact ⟨rfl, rfl, rfl, rfl, rfl, rfl, [], rfl, by simp⟩
  · intro l' h w _
    constructor
    · apply h.1.trans
      apply sameScenes_setCanvas
      apply Canvas.content_mark
    · apply h.2

theorem receiveAll_spec (l : FrameLoop) :
  SameScenes l l.receiveAll ∧ Studio.Idles l.studio l.receiveAll.studio
  := by
  rw [receiveAll]
  split
  · exact ⟨SameScenes.refl l, Studio.Idles.refl _⟩
  · split
    · exact ⟨SameScenes.refl l, Studio.Idles.refl _⟩
    · rename_i m _ _
      obtain ⟨hscenes, hidle⟩ := restyle_spec { l with settings := some { m with pending := [] } }
      use ⟨hscenes.windows, hscenes.queue, hscenes.content⟩

theorem idles_run_deed (l : FrameLoop) (d : Deed) :
  Studio.Idles l.studio (d.run l).studio
  := by
  cases d with
  | clock t => apply Studio.Idles.atTime
  | _ => apply Studio.Idles.refl

theorem idles_polled (l : FrameLoop) (deeds : List Deed) :
  Studio.Idles l.studio (l.polled deeds).studio
  := by
  rw [polled]
  apply List.foldlRecOn (motive := fun l' : FrameLoop => Studio.Idles l.studio l'.studio)
  · apply (receiveAll_spec l).2.trans
    apply Studio.Idles.record
    trivial
  · intro l' h d _
    apply h.trans (idles_run_deed l' d)

/-! ### Orderly loops -/

/-- A window of the loop shows the canvas. -/
def Shows (l : FrameLoop) (c : CanvasId) : Prop := c ∈ l.windows.map Window.canvas

theorem SameScenes.shows (h : SameScenes l l') :
  l'.Shows = l.Shows
  := by
  funext c
  rw [Shows, Shows, h.windows]

/-- What does not depend on when windows were walked is the same for all of them. -/
theorem map_forgetWalk {α : Type} {f : Window → α}
    (hf : ∀ w, f { w with walkedAt := none } = f w) (l : FrameLoop) (c : CanvasId) :
  (l.forgetWalk c).windows.map f = l.windows.map f
  := by
  change (forgetWalk.go c l.windows).map f = _
  induction l.windows with
  | nil => rfl
  | cons w ws ih =>
    rw [forgetWalk.go]
    split
    · rw [List.map_cons, List.map_cons, hf]
    · rw [List.map_cons, List.map_cons, ih]

theorem sameScenes_forgetWalk (l : FrameLoop) (c : CanvasId) :
  SameScenes l (l.forgetWalk c)
  := ⟨l.map_forgetWalk (fun _ => rfl) c, rfl, fun _ => rfl⟩

theorem addWindow_spec (l : FrameLoop) (c : CanvasId) (s : SurfaceId) :
  (∀ c', l.Shows c' → (l.addWindow c s).Shows c')
    ∧ Studio.Idles l.studio (l.addWindow c s).studio
  := by
  constructor
  · intro c' h
    rw [Shows, addWindow, List.map_append]
    apply List.mem_append_left _ h
  · rw [addWindow, Studio.update, Inventory.register]
    dsimp only
    split
    · apply Studio.Idles.refl
    · exact ⟨rfl, rfl, rfl, rfl, rfl, rfl, [], rfl, by simp⟩

/-- What the studio holds belongs to the windows, and every object is drawn as its kind. -/
structure Orderly (config : Config) (kind : ObjectId → ObjectKind) (l : FrameLoop) : Prop where
  /-- No closure is queued. -/
  queue : l.queue = []
  /-- Time passes in few calls only. -/
  calm : l.studio.host.policy.Calm
  /-- The lifetimes are those of the configuration. -/
  regular : l.studio.Regular config
  /-- Every node is drawn as the kind of its object. -/
  nodes : ∀ c, (l.canvas c).All (Node.Fits kind)
  /-- Every resource belongs to an object that is mounted on a canvas of a window. -/
  sound : l.studio.Sound kind l.Shows

variable {config : Config} {kind : ObjectId → ObjectKind}

theorem orderly_ofConfig (layouts : Layouts) (config : Config) {policy : Policy}
    (hp : policy.Calm) :
  (ofConfig layouts config policy).Orderly config kind
  := by
  constructor
  · rfl
  · apply hp
  · apply Studio.regular_ofConfig
  · intro c
    apply Scene.all_empty
  · apply Studio.sound_ofConfig

namespace Orderly

theorem idle (h : l.Orderly config kind) (hs : SameScenes l l')
    (hi : Studio.Idles l.studio l'.studio) :
  l'.Orderly config kind
  := by
  constructor
  · rw [hs.queue, h.queue]
  · rw [hi.policy]
    apply h.calm
  · apply hi.regular h.regular
  · intro c
    apply hs.all (h.nodes c)
  · rw [hs.shows]
    apply hi.sound h.sound

/-- As long as it leaves the scenes alone, a course of acts that keeps the studio sound keeps
the loop orderly. -/
theorem course {P : Studio → Studio.Act → Prop} (h : l.Orderly config kind)
    (hs : SameScenes l l') (hc : Studio.Course P l.studio l'.studio)
    (hsound : l'.studio.Sound kind l.Shows) :
  l'.Orderly config kind
  := by
  constructor
  · rw [hs.queue, h.queue]
  · rw [hc.policy_eq]
    apply h.calm
  · apply h.regular.course hc
  · intro c
    apply hs.all (h.nodes c)
  · rw [hs.shows]
    apply hsound

theorem deed (h : l.Orderly config kind) {d : Deed} (hd : d.Respects kind) :
  (d.run l).Orderly config kind
  := by
  cases d with
  | clock t => exact h.idle ⟨rfl, rfl, fun _ => rfl⟩ (Studio.Idles.atTime _ _)
  | surface s state => exact h.idle ⟨rfl, rfl, fun _ => rfl⟩ (Studio.Idles.refl _)
  | send change => exact h.idle ⟨rfl, rfl, fun _ => rfl⟩ (Studio.Idles.refl _)
  | dropSender => exact h.idle ⟨rfl, rfl, fun _ => rfl⟩ (Studio.Idles.refl _)
  | edit c e =>
    refine ⟨h.queue, h.calm, h.regular, ?_, h.sound⟩
    intro c'
    rw [Deed.run, canvas_setCanvas]
    split
    · apply Edit.all_run hd (h.nodes c)
    · apply h.nodes

theorem polled (h : l.Orderly config kind) {deeds : List Deed}
    (hd : ∀ d ∈ deeds, d.Respects kind) :
  (l.polled deeds).Orderly config kind
  := by
  rw [FrameLoop.polled]
  apply List.foldlRecOn (motive := Orderly config kind)
  · obtain ⟨hscenes, hidle⟩ := receiveAll_spec l
    have hrecord : Studio.Idles l.receiveAll.studio (l.receiveAll.record .polled).studio :=
      Studio.Idles.record _ trivial
    exact (h.idle hscenes hidle).idle ⟨rfl, rfl, fun _ => rfl⟩ hrecord
  · intro l' h' d hm
    apply h'.deed (hd d hm)

theorem animated (h : l.Orderly config kind) :
  l.animated.Orderly config kind
  := by
  apply h.idle (sameScenes_animated l)
  rw [studio_animated]
  apply Studio.Idles.record
  trivial

/-- Drawing a window keeps what the studio holds in order. -/
theorem sound_draws {now : Instant} {w w' : Window} {d : Drawn} {s' : Studio}
    {nodes : List (Node × Position)} (h : l.Orderly config kind) (hw : l.Shows w.canvas)
    (hn : ∀ n ∈ nodes, n.1.Fits kind) (hd : Draws now w nodes l.studio d w' s') :
  s'.Sound kind l.Shows
  := by
  cases hd with
  | left => apply h.sound
  | walked =>
    apply Studio.Sound.record
    apply h.sound.keepAlive h.regular
  | repainted stale calls hc =>
    have hdrop := Studio.Course.foldl Studio.course_dropTexture stale l.studio
    have hsound : (stale.foldl (fun s o => (s.dropTexture o).2) l.studio).Sound kind l.Shows := by
      apply List.foldlRecOn (motive := Studio.Sound kind l.Shows) _ _ h.sound
      intro s hs o _
      apply hs.dropTexture
    apply List.foldlRecOn (motive := Studio.Sound kind l.Shows) calls
    · apply Studio.Sound.paintAll (hsound.record _) _ _ hn hw
      · exact config
      · apply (h.regular.course hdrop).run (.call (.frameBegun w.canvas))
      · change (stale.foldl (fun s o => (s.dropTexture o).2) l.studio).host.policy.Calm
        rw [hdrop.policy_eq]
        apply h.calm
    · intro s hs e _
      apply hs.record

theorem drawn (h : l.Orderly config kind) :
  l.drawn.2.Orderly config kind
  := by
  let now := l.markClosing.studio.now
  have hall : (drawAll now l.animated.windows l.animated).2.Orderly config kind := by
    apply (drawAll_invariant (I := fun l' =>
      SameScenes l.animated l' ∧ l'.Orderly config kind) _ _).2
    · rintro w hw l' ⟨hscenes, h'⟩
      have hshows : l'.Shows w.canvas := by
        rw [hscenes.shows]
        apply List.mem_map_of_mem hw
      have hdraws := draws_drawWindow now w l'
      have hscenes' := sameScenes_drawWindow now w l'
      use hscenes.trans hscenes'
      apply h'.course hscenes' hdraws.course
      apply h'.sound_draws hshows (h'.nodes w.canvas).walk hdraws
    · exact ⟨SameScenes.refl _, h.animated⟩
  constructor
  · apply hall.queue
  · apply hall.calm
  · apply hall.regular
  · apply hall.nodes
  · have hshows : (l.animated.draw now).2.Shows
        = (drawAll now l.animated.windows l.animated).2.Shows := by
      rw [(sameScenes_draw l.animated now).shows, (sameScenes_drawAll now _ l.animated).shows]
    change Studio.Sound kind (l.animated.draw now).2.Shows _
    rw [hshows]
    apply hall.sound

theorem swept (h : l.Orderly config kind) :
  l.swept.Orderly config kind
  := by
  apply h.drawn.course (sameScenes_studio _ _) (Studio.course_sweep _ _ _)
  apply h.drawn.sound.sweep

/-- Destroying windows leaves nothing mounted on their canvases. -/
theorem sound_destroyAll {shown : CanvasId → Prop} (h : l.studio.Sound kind shown)
    (ws : List Window) :
  (l.destroyAll ws).studio.Sound kind fun c => shown c ∧ ∀ w ∈ ws, c ≠ w.canvas
  := by
  induction ws generalizing l shown with
  | nil =>
    apply h.mono
    intro o m _ hs
    use hs
    simp
  | cons w ws ih =>
    have hdestroy : (l.destroy w).studio.Sound kind fun c => shown c ∧ c ≠ w.canvas :=
      (h.forgetCanvas w.canvas).record _
    apply (ih hdestroy).mono
    rintro o m _ ⟨⟨hs, hw⟩, hws⟩
    use hs
    intro w' hw'
    rcases List.mem_cons.1 hw' with rfl | hw'
    · apply hw
    · apply hws w' hw'

theorem finished (h : l.Orderly config kind) :
  l.finished.Orderly config kind
  := by
  obtain ⟨hstudio, hcanvases, hqueue, hwindows⟩ := l.finished_spec
  have hscenes := sameScenes_destroyAll l.swept l.swept.closing
  have hcourse := course_destroyAll l.swept l.swept.closing
  constructor
  · rw [hqueue, hscenes.queue, h.swept.queue]
  · rw [hstudio, hcourse.policy_eq]
    apply h.swept.calm
  · rw [hstudio]
    apply h.swept.regular.course hcourse
  · intro c
    rw [canvas, hcanvases]
    apply hscenes.all (h.swept.nodes c)
  · rw [hstudio]
    apply (sound_destroyAll h.swept.sound l.swept.closing).mono
    rintro o m _ ⟨hs, hne⟩
    obtain ⟨w, hw, hc⟩ := List.mem_map.1 hs
    rw [Shows, hwindows, List.mem_map]
    use w
    constructor
    · apply List.mem_filter.2
      use hw
      apply decide_eq_true
      intro hclosing
      apply hne w _ hc.symm
      apply List.mem_filter.2
      use hw
      apply decide_eq_true hclosing
    · apply hc

/-- Every move keeps a loop orderly. -/
theorem run (h : l.Orderly config kind) {m : Move} (hm : m.Respects kind) :
  (m.run l).Orderly config kind
  := by
  cases m with
  | deed d => apply h.deed hm
  | frame deeds =>
    rw [run_frame h.queue]
    split
    · apply h
    · apply (h.polled hm).finished
  | restyle =>
    obtain ⟨hscenes, hidle⟩ := restyle_spec l
    apply h.idle hscenes hidle
  | listen => exact h.idle ⟨rfl, rfl, fun _ => rfl⟩ (Studio.Idles.refl _)
  | quit => exact h.idle ⟨rfl, rfl, fun _ => rfl⟩ (Studio.Idles.refl _)
  | forgetWalk c => exact h.idle (sameScenes_forgetWalk l c) (Studio.Idles.refl _)
  | addWindow c s =>
    obtain ⟨hshows, hidle⟩ := addWindow_spec l c s
    constructor
    · apply h.queue
    · rw [Move.run, hidle.policy]
      apply h.calm
    · apply hidle.regular h.regular
    · apply h.nodes
    · apply (hidle.sound h.sound).mono
      intro o m _
      apply hshows

end Orderly

section

variable {layouts : Layouts} {policy : Policy} {moves : List Move}

/-- What every move of an orderly loop keeps is kept by all moves together. -/
theorem orderly_play_invariant {I : FrameLoop → Prop} (hp : policy.Calm)
    (hm : ∀ m ∈ moves, m.Respects kind)
    (hI : ∀ (l : FrameLoop) (m : Move), l.Orderly config kind → m.Respects kind → I l →
      I (m.run l))
    (h : I (ofConfig layouts config policy)) :
  ((ofConfig layouts config policy).play moves).Orderly config kind
    ∧ I ((ofConfig layouts config policy).play moves)
  := by
  apply play_invariant (I := fun l => l.Orderly config kind ∧ I l)
  · rintro m hmem l ⟨ho, hi⟩
    exact ⟨ho.run (hm m hmem), hI l m ho (hm m hmem) hi⟩
  · exact ⟨orderly_ofConfig layouts config hp, h⟩

theorem orderly_play (hp : policy.Calm) (hm : ∀ m ∈ moves, m.Respects kind) :
  ((ofConfig layouts config policy).play moves).Orderly config kind
  := by
  apply And.left
  apply orderly_play_invariant (I := fun _ => True) hp hm
  · intro _ _ _ _ _
    trivial
  · trivial

end

end FrameLoop

end FrameCache
