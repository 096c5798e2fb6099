import FrameCache.Proofs.Painting

/-!
# The upkeep of resources

A regular studio keeps mountings and renderers for the lifetime of its configuration, and
textures until the last instant.

In a sound studio every resource belongs to a mounted object: a renderer to a widget that is
mounted with the same deadline, a texture to an object that is mounted, and to a widget only
beside its renderer.  Whatever a frame does with a studio keeps it sound, if every object is
always drawn as the same kind.
-/

namespace FrameCache

/-- What lives forever lives until the last instant. -/
theorem Instant.nanos_after_forever (t : Instant) :
  (t.after .forever).nanos = horizon
  := by
  have h : horizon ≤ t.nanos + Duration.forever.nanos := by
    simp only [horizon, Duration.forever, UInt64.size]
    omega
  rw [nanos_after, Nat.min_eq_right h]

namespace Studio

/-- The lifetimes are those of the configuration `c`, and textures live until the last
instant. -/
structure Regular (c : Config) (s : Studio) : Prop where
  /-- The time constants. -/
  config : s.inventory.config = c
  /-- Mountings live for the lifetime of the configuration. -/
  mountings : s.inventory.mountings.lifetime = c.lifetime
  /-- Renderers live for the lifetime of the configuration. -/
  renderers : s.inventory.renderers.lifetime = c.lifetime
  /-- Textures have the longest lifetime there is. -/
  textures : s.inventory.textures.lifetime = .forever
  /-- Textures live until the last instant. -/
  lasting : ∀ o t, s.texture? o = some t → t.deadline.nanos = horizon

theorem regular_ofConfig (layouts : Layouts) (c : Config) (policy : Policy) :
  (ofConfig layouts c policy).Regular c
  := by
  constructor
  · rfl
  · rfl
  · rfl
  · rfl
  · intro o t ht
    rw [show (ofConfig layouts c policy).texture? o = none from Store.find?_empty _ _] at ht
    cases ht

namespace Regular

variable {c : Config} {s : Studio}

theorem dropTexture (h : s.Regular c) (o : ObjectId) :
  (s.dropTexture o).2.Regular c
  := by
  have htextures := s.texture?_dropTexture o
  rw [dropTexture_eq] at htextures ⊢
  refine ⟨h.config, h.mountings, h.renderers, ?_, ?_⟩
  · rw [← h.textures]
    apply Cache.lifetime_remove
  · intro o' t ht
    rw [htextures] at ht
    split at ht
    · cases ht
    · apply h.lasting o' t ht

theorem dismantle (h : s.Regular c) (o : ObjectId) (expiredAt : Option Instant) :
  (s.dismantle o expiredAt).2.Regular c
  := by
  cases hr : s.lapsedRenderer o expiredAt with
  | none =>
    rw [dismantle_of_none hr]
    apply h
  | some r =>
    have htextures := fun o' => s.texture?_dismantle o o' expiredAt
    rw [dismantle_of_some hr] at htextures ⊢
    refine ⟨h.config, h.mountings, ?_, ?_, ?_⟩
    · rw [← h.renderers]
      apply Cache.lifetime_takeIf
    · rw [← h.textures]
      apply Cache.lifetime_remove
    · intro o' t ht
      rw [htextures] at ht
      split at ht
      · cases ht
      · apply h.lasting o' t ht

theorem texture (h : s.Regular c) (o : ObjectId) :
  (s.texture o).2.Regular c
  := by
  have hlasting : ∀ o' t, (s.texture o).2.texture? o' = some t → t.deadline.nanos = horizon := by
    intro o' t ht
    by_cases ho : o' = o
    · subst ho
      rcases s.texture?_texture o' ht with hd | hs
      · rw [hd, h.textures, Instant.nanos_after_forever]
      · apply h.lasting o' t hs
    · rw [texture?_texture_of_ne s ho] at ht
      apply h.lasting o' t ht
  cases hp : s.inventory.textures.peek o s.now with
  | some t =>
    rw [texture_of_live hp] at hlasting ⊢
    refine ⟨h.config, h.mountings, h.renderers, ?_, hlasting⟩
    rw [← h.textures]
    apply Cache.lifetime_renew
  | none =>
    rw [texture_of_not_live hp] at hlasting ⊢
    refine ⟨h.config, h.mountings, h.renderers, ?_, hlasting⟩
    rw [lifetime_keepUpload, h.textures]

/-- Every act keeps a studio regular. -/
theorem run (h : s.Regular c) (a : Act) :
  (a.run s).Regular c
  := by
  cases a with
  | call e => exact ⟨h.config, h.mountings, h.renderers, h.textures, h.lasting⟩
  | keepValues texts icons => exact ⟨h.config, h.mountings, h.renderers, h.textures, h.lasting⟩
  | present canvases => exact ⟨h.config, h.mountings, h.renderers, h.textures, h.lasting⟩
  | plan schedule => exact ⟨h.config, h.mountings, h.renderers, h.textures, h.lasting⟩
  | canvasOf o =>
    refine ⟨h.config, ?_, h.renderers, h.textures, h.lasting⟩
    rw [← h.mountings]
    apply Cache.lifetime_get
  | mount o m =>
    rw [Act.run, update, Inventory.mount_eq]
    refine ⟨h.config, ?_, h.renderers, h.textures, h.lasting⟩
    rw [← h.mountings]
    apply Inventory.lifetime_mount
  | touch o =>
    rw [Act.run, query, Inventory.touch_eq]
    refine ⟨h.config, ?_, ?_, h.textures, h.lasting⟩
    · rw [← h.mountings]
      apply Cache.lifetime_renew
    · rw [← h.renderers]
      dsimp only
      split
      · apply Cache.lifetime_renew
      · rfl
  | unmount o cause accept =>
    refine ⟨h.config, ?_, h.renderers, h.textures, h.lasting⟩
    rw [← h.mountings]
    apply Cache.lifetime_takeIf
  | findRenderer o =>
    refine ⟨h.config, h.mountings, ?_, h.textures, h.lasting⟩
    rw [← h.renderers]
    apply Cache.lifetime_get
  | create o =>
    refine ⟨h.config, h.mountings, ?_, h.textures, h.lasting⟩
    rw [← h.renderers]
    apply Cache.lifetime_create
  | dismantle o expiredAt => apply h.dismantle
  | texture o => apply h.texture
  | dropTexture o => apply h.dropTexture
  | setTheme o t => exact ⟨h.config, h.mountings, h.renderers, h.textures, h.lasting⟩
  | themeOf o => exact ⟨h.config, h.mountings, h.renderers, h.textures, h.lasting⟩

theorem course {P : Studio → Act → Prop} {s' : Studio} (h : s.Regular c)
    (hc : Course P s s') :
  s'.Regular c
  := hc.invariant (fun _ a _ _ hs => hs.run a) h

/-- A texture that lives until the last instant is alive before it. -/
theorem keepsTextures (h : s.Regular c) (hnow : s.now.nanos < horizon) :
  s.KeepsTextures
  := by
  intro o e he
  rw [Instant.lt_iff, h.lasting o e he]
  apply hnow

end Regular

/-! ### Sound studios -/

/-- The resources of the object `o`, which is drawn as `kind`, belong together. -/
structure SoundAt (kind : ObjectKind) (shown : CanvasId → Prop) (s : Studio) (o : ObjectId) :
    Prop where
  /-- The object is mounted as what it is, on a canvas that is shown. -/
  mounted : ∀ m, s.mounting? o = some m → m.value.kind = kind ∧ shown m.value.canvas
  /-- Only a widget has a renderer, and it is mounted with the same deadline. -/
  rendered : ∀ r, s.renderer? o = some r →
    kind = .widget ∧ ∃ m, s.mounting? o = some m ∧ m.deadline = r.deadline
  /-- An object with a texture is mounted, and has a renderer if it is a widget. -/
  textured : ∀ t, s.texture? o = some t →
    (∃ m, s.mounting? o = some m) ∧ (kind = .widget → ∃ r, s.renderer? o = some r)

/-- The resources of every object belong together. -/
def Sound (kind : ObjectId → ObjectKind) (shown : CanvasId → Prop) (s : Studio) : Prop :=
  ∀ o, s.SoundAt (kind o) shown o

section

variable {k : ObjectKind} {kind : ObjectId → ObjectKind} {shown : CanvasId → Prop}
  {s s' : Studio} {o : ObjectId} {c : CanvasId}

theorem sound_ofConfig (layouts : Layouts) (c : Config) (policy : Policy) :
  (ofConfig layouts c policy).Sound kind shown
  := by
  intro o
  constructor
  · intro m hm
    rw [show (ofConfig layouts c policy).mounting? o = none from Store.find?_empty _ _] at hm
    cases hm
  · intro r hr
    rw [show (ofConfig layouts c policy).renderer? o = none from Store.find?_empty _ _] at hr
    cases hr
  · intro t ht
    rw [show (ofConfig layouts c policy).texture? o = none from Store.find?_empty _ _] at ht
    cases ht

/-- The resources of an object belong together as long as its entries stay; its texture may
go. -/
theorem SoundAt.congr (h : s.SoundAt k shown o) (hm : s'.mounting? o = s.mounting? o)
    (hr : s'.renderer? o = s.renderer? o)
    (ht : ∀ t, s'.texture? o = some t → ∃ t, s.texture? o = some t) :
  s'.SoundAt k shown o
  := by
  constructor
  · rw [hm]
    apply h.mounted
  · rw [hm, hr]
    apply h.rendered
  · intro t hs
    obtain ⟨t, hs⟩ := ht t hs
    rw [hm, hr]
    apply h.textured t hs

/-- An object without any entry is sound. -/
theorem SoundAt.of_none (hm : s.mounting? o = none) (hr : s.renderer? o = none)
    (ht : s.texture? o = none) :
  s.SoundAt k shown o
  := by
  constructor
  · intro m h
    rw [hm] at h
    cases h
  · intro r h
    rw [hr] at h
    cases h
  · intro t h
    rw [ht] at h
    cases h

theorem Sound.mono {shown' : CanvasId → Prop} (h : s.Sound kind shown)
    (hs : ∀ o m, s.mounting? o = some m → shown m.value.canvas → shown' m.value.canvas) :
  s.Sound kind shown'
  := by
  intro o
  constructor
  · intro m hm
    obtain ⟨hk, hshown⟩ := (h o).mounted m hm
    use hk
    apply hs o m hm hshown
  · apply (h o).rendered
  · apply (h o).textured

/-- Calls and changes of the other caches do not concern the resources. -/
theorem Sound.of_entries (h : s.Sound kind shown)
    (hm : s'.inventory.mountings = s.inventory.mountings)
    (hr : s'.inventory.renderers = s.inventory.renderers)
    (ht : s'.inventory.textures = s.inventory.textures) :
  s'.Sound kind shown
  := by
  intro o
  apply (h o).congr
  · rw [mounting?, hm]
    rfl
  · rw [renderer?, hr]
    rfl
  · intro t hs
    use t
    rw [← hs, texture?, texture?, ht]

theorem Sound.record (h : s.Sound kind shown) (e : Event) :
  (s.record e).Sound kind shown
  := h.of_entries rfl rfl rfl

theorem Sound.dropTexture (h : s.Sound kind shown) (o : ObjectId) :
  (s.dropTexture o).2.Sound kind shown
  := by
  intro o'
  apply (h o').congr
  · rw [mounting?, mountings_dropTexture]
    rfl
  · rw [renderer?, renderers_dropTexture]
    rfl
  · intro t ht
    rw [texture?_dropTexture] at ht
    split at ht
    · cases ht
    · use t

/-! ### Painting and walking keep a studio sound -/

theorem Sound.paintNode {config : Config} (h : s.Sound kind shown) (hr : s.Regular config)
    (hc : s.host.policy.Calm) {n : Node} (p : Position) (hn : n.kind = kind n.object)
    (hshown : shown c) :
  (paintNode c s (n, p)).Sound kind shown
  := by
  intro o
  by_cases ho : o = n.object
  · subst ho
    have hm := mounting?_paintNode c s n p n.object
    rw [if_pos rfl] at hm
    cases hk : n.kind with
    | widget =>
      obtain ⟨r, hr'⟩ := exists_renderer?_paintNode c hc p hk
      constructor
      · intro m hm'
        rw [hm] at hm'
        cases hm'
        use hn
      · intro r' hr''
        rw [hr'] at hr''
        cases hr''
        constructor
        · rw [← hn, hk]
        · exact ⟨_, hm, by rw [hr.mountings, hr.renderers]⟩
      · intro t _
        use ⟨_, hm⟩
        intro _
        use ⟨r, s.now.after s.inventory.renderers.lifetime⟩, hr'
    | plain =>
      have hplain : s.renderer? n.object = none := by
        cases hs : s.renderer? n.object with
        | none => rfl
        | some r =>
          have := ((h n.object).rendered r hs).1
          rw [← hn, hk] at this
          cases this
      constructor
      · intro m hm'
        rw [hm] at hm'
        cases hm'
        use hn
      · intro r hr'
        rw [renderer?_paintNode_of_plain c s p hk, hplain] at hr'
        cases hr'
      · intro t _
        use ⟨_, hm⟩
        intro hw
        rw [← hn, hk] at hw
        cases hw
  · have hm := mounting?_paintNode c s n p o
    rw [if_neg ho] at hm
    apply (h o).congr hm (renderer?_paintNode_of_ne c s p ho)
    intro t ht
    rw [texture?_paintNode_of_ne c s p ho] at ht
    use t

theorem Sound.paintAll {config : Config} (h : s.Sound kind shown) (hr : s.Regular config)
    (hc : s.host.policy.Calm) {nodes : List (Node × Position)}
    (hn : ∀ n ∈ nodes, n.1.kind = kind n.1.object) (hshown : shown c) :
  (s.paintAll c nodes).2.Sound kind shown
  := by
  change (nodes.foldl (Studio.paintNode c) s).Sound kind shown
  induction nodes generalizing s with
  | nil => apply h
  | cons n nodes ih =>
    have hcourse := course_paintNode c s n
    apply ih
    · apply h.paintNode hr hc n.2 (hn n List.mem_cons_self) hshown
    · apply hr.course hcourse
    · rw [hcourse.policy_eq]
      apply hc
    · intro n' hn'
      apply hn n' (List.mem_cons_of_mem _ hn')

theorem Sound.renew {config : Config} (h : s.Sound kind shown) (hr : s.Regular config)
    (o : ObjectId) :
  (s.renew o).Sound kind shown
  := by
  intro o'
  by_cases ho : o' = o
  · subst ho
    have hm := s.mounting?_renew o' o'
    have hrenderer := s.renderer?_renew o' o'
    rw [if_pos rfl] at hm
    cases hmounted : s.mounting? o' with
    | none =>
      rw [hmounted] at hm hrenderer
      apply (h o').congr
      · rw [hm, hmounted]
        rfl
      · simpa using hrenderer
      · intro t ht
        use t
        rw [← ht, texture?_renew]
    | some m =>
      obtain ⟨hk, hshown⟩ := (h o').mounted m hmounted
      rw [hmounted] at hm hrenderer
      simp only [Option.isSome_some, and_self, if_true] at hrenderer
      constructor
      · intro m' hm'
        rw [hm] at hm'
        cases hm'
        use hk
        apply hshown
      · intro r hr'
        rw [hrenderer] at hr'
        obtain ⟨r, hs, rfl⟩ := Option.map_eq_some_iff.1 hr'
        use ((h o').rendered r hs).1
        use m.postpone (s.now.after s.inventory.mountings.lifetime), hm
        rw [hr.mountings, hr.renderers]
        rfl
      · intro t ht
        rw [texture?_renew] at ht
        use ⟨_, hm⟩
        intro hw
        obtain ⟨r, hs⟩ := ((h o').textured t ht).2 hw
        rw [hrenderer, hs]
        use r.postpone (s.now.after s.inventory.renderers.lifetime)
        rfl
  · apply (h o').congr
    · rw [mounting?_renew, if_neg ho]
    · rw [renderer?_renew, if_neg fun h => ho h.1]
    · intro t ht
      use t
      rw [← ht, texture?_renew]

theorem Sound.keepAlive {config : Config} (h : s.Sound kind shown) (hr : s.Regular config)
    (nodes : List (Node × Position)) :
  (s.keepAlive nodes).2.Sound kind shown
  := by
  rw [snd_keepAlive]
  induction nodes generalizing s with
  | nil => apply h
  | cons n nodes ih =>
    apply ih (h.renew hr n.1.object)
    apply hr.run (.touch n.1.object)

/-! ### Taking objects away keeps a studio sound -/

/-- Once an object is not mounted any more, what it owns is given back. -/
theorem Sound.release (h : s.Sound kind shown) (hm : s'.mounting? o = none)
    (hother : ∀ o', o' ≠ o → s'.mounting? o' = s.mounting? o')
    (hr : s'.inventory.renderers = s.inventory.renderers)
    (ht : s'.inventory.textures = s.inventory.textures) {expiredAt : Option Instant}
    (hl : ∀ r, s.renderer? o = some r → r.lapsedBy expiredAt = true) :
  (s'.release o (kind o) expiredAt).2.Sound kind shown
  := by
  have hr' : ∀ o', s'.renderer? o' = s.renderer? o' := by
    intro o'
    rw [renderer?, hr]
    rfl
  have ht' : ∀ o', s'.texture? o' = s.texture? o' := by
    intro o'
    rw [texture?, ht]
    rfl
  intro o'
  cases hk : kind o with
  | widget =>
    have hmountings : (s'.dismantle o expiredAt).2.mounting? o' = s'.mounting? o' := by
      rw [mounting?, mountings_dismantle]
      rfl
    change (s'.dismantle o expiredAt).2.SoundAt (kind o') shown o'
    by_cases ho : o' = o
    · subst ho
      apply SoundAt.of_none
      · rw [hmountings, hm]
      · rw [renderer?_dismantle, if_pos rfl, Option.filter_eq_none_iff, hr']
        intro r hs
        simp [hl r hs]
      · rw [texture?_dismantle, ht']
        split
        · rfl
        · -- Nothing was destroyed, so there was no renderer, and hence no texture.
          rename_i hn
          cases hs : s.texture? o' with
          | none => rfl
          | some t =>
            obtain ⟨r, hs⟩ := ((h o').textured t hs).2 hk
            apply absurd _ hn
            simp [lapsedRenderer, hr', hs, hl r hs]
    · apply (h o').congr
      · rw [hmountings, hother o' ho]
      · rw [renderer?_dismantle, if_neg ho, hr']
      · intro t hs
        rw [texture?_dismantle, if_neg fun h => ho h.1, ht'] at hs
        use t
  | plain =>
    have hmountings : (s'.dropTexture o).2.mounting? o' = s'.mounting? o' := by
      rw [mounting?, mountings_dropTexture]
      rfl
    have hrenderers : (s'.dropTexture o).2.renderer? o' = s.renderer? o' := by
      rw [renderer?, renderers_dropTexture, hr]
      rfl
    change (s'.dropTexture o).2.SoundAt (kind o') shown o'
    by_cases ho : o' = o
    · subst ho
      apply SoundAt.of_none
      · rw [hmountings, hm]
      · rw [hrenderers]
        cases hs : s.renderer? o' with
        | none => rfl
        | some r =>
          have := ((h o').rendered r hs).1
          rw [hk] at this
          cases this
      · rw [texture?_dropTexture, if_pos rfl]
    · apply (h o').congr
      · rw [hmountings, hother o' ho]
      · rw [hrenderers]
      · intro t hs
        rw [texture?_dropTexture, if_neg ho, ht'] at hs
        use t

theorem Sound.dismantle (h : s.Sound kind shown) (o : ObjectId) (expiredAt : Option Instant) :
  (s.dismantle o expiredAt).2.Sound kind shown
  := by
  cases hl : s.lapsedRenderer o expiredAt with
  | none =>
    rw [dismantle_of_none hl]
    apply h
  | some r =>
    have hm : ∀ o', (s.dismantle o expiredAt).2.mounting? o' = s.mounting? o' := by
      intro o'
      rw [mounting?, mountings_dismantle]
      rfl
    intro o'
    by_cases ho : o' = o
    · subst ho
      have hr : (s.dismantle o' expiredAt).2.renderer? o' = none := by
        rw [renderer?_dismantle, if_pos rfl, Option.filter_eq_none_iff]
        intro e he
        rw [lapsedRenderer, he] at hl
        cases hlapsed : e.lapsedBy expiredAt with
        | true => simp
        | false => simp [hlapsed] at hl
      have ht : (s.dismantle o' expiredAt).2.texture? o' = none := by
        rw [texture?_dismantle, hl]
        simp
      constructor
      · rw [hm]
        apply (h o').mounted
      · intro r' hr'
        rw [hr] at hr'
        cases hr'
      · intro t ht'
        rw [ht] at ht'
        cases ht'
    · apply (h o').congr (hm o')
      · rw [renderer?_dismantle, if_neg ho]
      · intro t ht
        rw [texture?_dismantle, if_neg fun h => ho h.1] at ht
        use t

theorem Sound.unmountIfExpired (h : s.Sound kind shown) (now : Instant)
    (canvases : List CanvasId) {e : ObjectId × Mounting} (he : e.2.kind = kind e.1) :
  (unmountIfExpired now canvases s e).Sound kind shown
  := by
  rw [Studio.unmountIfExpired]
  split
  · split
    · apply h
    · rename_i v mountings hv
      obtain ⟨m, hm, hlapsed, -, rfl⟩ := Cache.takeIf_eq_some hv
      rw [he]
      apply h.release
      · apply (Store.find?_erase _ _ _).trans
        rw [if_pos rfl]
      · intro o' ho
        apply (Store.find?_erase _ _ _).trans
        rw [if_neg ho]
        rfl
      · rfl
      · rfl
      · intro r hr
        obtain ⟨-, m', hm', hd⟩ := (h e.1).rendered r hr
        cases hm.symm.trans hm'
        rw [Entry.lapsedBy, ← hd]
        apply hlapsed
  · apply h

theorem Sound.sweepObjects (h : s.Sound kind shown) (now : Instant)
    (canvases : List CanvasId) :
  (s.sweepObjects now canvases).2.Sound kind shown
  := by
  have hkinds : ∀ e ∈ s.inventory.mountings.lapsedEntries now, e.2.kind = kind e.1 := by
    rintro ⟨o, m⟩ he
    obtain ⟨e, hfind, -, rfl⟩ := Cache.mem_lapsedEntries.1 he
    apply ((h o).mounted e hfind).1
  rw [snd_sweepObjects, snd_unmountExpired, snd_dismantleExpired]
  apply List.foldlRecOn (motive := Sound kind shown)
  · apply List.foldlRecOn (motive := Sound kind shown) _ _ h
    intro s hs e he
    apply hs.unmountIfExpired now canvases (hkinds e he)
  · intro s hs e _
    apply hs.dismantle

theorem Sound.sweep (h : s.Sound kind shown) (repainted : Bool) (refreshed : List CanvasId) :
  (s.sweep repainted refreshed).2.Sound kind shown
  := by
  have hplanned : (s.planned repainted refreshed).Sound kind shown := h.of_entries rfl rfl rfl
  rw [snd_sweep]
  dsimp only
  generalize s.planned repainted refreshed = s' at hplanned ⊢
  have hvalues : (s'.sweepValues s.now).2.Sound kind shown := hplanned.of_entries rfl rfl rfl
  split
  · apply hplanned
  · apply hvalues
  · apply hvalues.sweepObjects

theorem Sound.forgetObject (c : CanvasId) (o : ObjectId) (m : Mounting) {w : Nat × Studio}
    (h : w.2.Sound kind shown) :
  (forgetObject c o m w).2.2.Sound kind shown
  := by
  obtain ⟨n, s⟩ := w
  rw [Studio.forgetObject]
  dsimp only
  split
  · apply h
  · rename_i v mountings hv
    obtain ⟨m, hm, -, rfl, rfl⟩ := Cache.takeIf_eq_some hv
    have hkind := ((h o).mounted m hm).1
    rw [hkind]
    apply Sound.release h
    · apply (Store.find?_erase _ _ _).trans
      rw [if_pos rfl]
    · intro o' ho
      apply (Store.find?_erase _ _ _).trans
      rw [if_neg ho]
      rfl
    · rfl
    · rfl
    · intro r _
      rfl

end

/-! ### Forgetting a canvas -/

/-- The mounting of an object after the canvas `c` was forgotten. -/
def notOn (c : CanvasId) (m : Option (Entry Mounting)) : Option (Entry Mounting) :=
  m.filter fun m => m.value.canvas ≠ c

theorem mounting?_forgetObject (c : CanvasId) (o o' : ObjectId) (m : Mounting)
    (w : Nat × Studio) :
  (forgetObject c o m w).2.2.mounting? o'
    = if o' = o then notOn c (w.2.mounting? o) else w.2.mounting? o'
  := by
  have hfilter : notOn c (w.2.mounting? o)
      = (w.2.mounting? o).filter fun m => !decide (m.value.canvas = c) := by
    rw [notOn]
    congr 1
    funext m
    simp
  rw [hfilter, mounting?, mountings_forgetObject]
  apply Cache.find?_takeIf

/-- Once a canvas was forgotten nothing is mounted on it; the other mountings stay. -/
theorem mounting?_forgetCanvas (s : Studio) (c : CanvasId) (o : ObjectId) :
  (s.forgetCanvas c).2.mounting? o = notOn c (s.mounting? o)
  := by
  have hidem : ∀ m, notOn c (notOn c m) = notOn c m := by
    intro m
    simp [notOn, Option.filter_filter]
  have hsame : notOn c ((s.forgetCanvas c).2.mounting? o) = notOn c (s.mounting? o) := by
    apply Cache.visitAll_invariant (I := fun w : Nat × Studio =>
      notOn c (w.2.mounting? o) = notOn c (s.mounting? o)) (fst_forgetObject c)
    · intro o' m w h
      rw [mounting?_forgetObject]
      split
      · rename_i ho
        rw [hidem, ← ho, h]
      · apply h
    · rfl
  have hdone : notOn c ((s.forgetCanvas c).2.mounting? o) = (s.forgetCanvas c).2.mounting? o := by
    apply Cache.visitAll_done (D := fun o (w : Nat × Studio) =>
      notOn c (w.2.mounting? o) = w.2.mounting? o) _ _ _ (fst_forgetObject c)
    · intro o m w
      rw [mountings_forgetObject]
      apply Cache.layout_takeIf
    · intro o m w
      rw [mounting?_forgetObject, if_pos rfl, hidem]
    · intro o o' m w h
      rw [mounting?_forgetObject]
      split
      · rw [hidem]
      · apply h
    · intro o w h
      rw [mounting?, h]
      rfl
  rw [← hdone, hsame]

section

variable {kind : ObjectId → ObjectKind} {shown : CanvasId → Prop} {s : Studio}

/-- Forgetting a canvas that is not shown any more keeps the studio sound. -/
theorem Sound.forgetCanvas (h : s.Sound kind shown) (c : CanvasId) :
  (s.forgetCanvas c).2.Sound kind (fun c' => shown c' ∧ c' ≠ c)
  := by
  have hs : (s.forgetCanvas c).2.Sound kind shown := by
    apply Cache.visitAll_invariant (I := fun w : Nat × Studio => w.2.Sound kind shown)
      (fst_forgetObject c)
    · intro o m w hw
      apply Sound.forgetObject c o m hw
    · apply h.of_entries
      · rfl
      · rfl
      · rfl
  apply hs.mono
  intro o m hm hshown
  use hshown
  rw [mounting?_forgetCanvas, notOn, Option.filter_eq_some_iff] at hm
  simpa using hm.2

end

end Studio

end FrameCache
