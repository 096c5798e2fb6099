import FrameCache.Proofs.Order

/-!
# Closing the last window

As long as the clock has not come to the last instant, every texture ever uploaded is either
held or was deleted, as often as it was uploaded; for renderers this is so in any case.  In an
orderly loop without windows nothing is held, so everything was given back.
-/

namespace FrameCache

namespace Studio

variable {s s' : Studio}

/-- The renderers are accounted for, and so are the textures unless the clock has come to the
last instant. -/
structure Accounted (s : Studio) : Prop where
  /-- Every renderer created is held or was destroyed. -/
  renderers : s.holdings.Balanced
  /-- Every texture uploaded is held or was deleted. -/
  textures : s.host.log.Early → s.holdings.TexturesBalanced

theorem accounted_ofConfig (layouts : Layouts) (c : Config) (policy : Policy) :
  (ofConfig layouts c policy).Accounted
  := by
  use balanced_ofConfig layouts c policy
  intro _
  apply texturesBalanced_ofConfig

theorem Accounted.idle (ha : s.Accounted) (h : Idles s s') :
  s'.Accounted
  := by
  use h.balanced ha.renderers
  intro hearly
  apply h.texturesBalanced
  apply ha.textures
  apply h.extends_log.early hearly

theorem Course.accounted {P : Studio → Act → Prop} {c : Config} (h : Course P s s')
    (hr : s.Regular c) (hf : s.host.Fresh) (ha : s.Accounted) :
  s'.Accounted
  := by
  use h.balanced ha.renderers
  suffices hall : s'.Regular c ∧ s'.host.Fresh
      ∧ (s'.host.log.Early → s'.holdings.TexturesBalanced) from hall.2.2
  apply h.invariant _ ⟨hr, hf, ha.textures⟩
  rintro s a hp hallowed ⟨hr, hf, ht⟩
  have hone : Course P s (a.run s) := .single a hp hallowed
  refine ⟨hr.run a, hone.fresh hf, ?_⟩
  intro hearly
  have hbefore := hone.extends_log.early hearly
  obtain ⟨xs, hxs, hkeeps⟩ := (a.transacts hallowed).exists_course
  apply hxs.texturesBalanced
  · apply hkeeps
    apply hr.keepsTextures (hbefore _ hf.mem)
  · apply ht hbefore

/-- If nothing is held, everything was given back. -/
theorem Accounted.given_back (ha : s.Accounted) (hearly : s.host.log.Early)
    (hr : s.inventory.renderers.toList = []) (ht : s.inventory.textures.toList = []) :
  s.host.log.destroyed.Perm s.host.log.created ∧ s.host.log.deleted.Perm s.host.log.uploaded
  := by
  constructor
  · have hcreated := created_perm ha.renderers
    rw [hr, List.nil_append] at hcreated
    apply hcreated.symm
  · have huploaded := texturesBalanced_iff.1 (ha.textures hearly)
    rw [ht, List.nil_append] at huploaded
    apply huploaded.symm

/-- Where nothing is shown nothing is held. -/
theorem Sound.nothing_held {kind : ObjectId → ObjectKind} {shown : CanvasId → Prop}
    (h : s.Sound kind shown) (hs : ∀ c, ¬ shown c) :
  s.inventory.mountings.toList = [] ∧ s.inventory.renderers.toList = []
    ∧ s.inventory.textures.toList = []
  := by
  have hm : ∀ o m, s.mounting? o ≠ some m := by
    intro o m hm
    apply hs m.value.canvas
    apply ((h o).mounted m hm).2
  simp only [Cache.toList_eq_nil_iff, Option.eq_none_iff_forall_ne_some]
  refine ⟨hm, ?_, ?_⟩
  · intro o r hr
    obtain ⟨-, m, hmounted, -⟩ := (h o).rendered r hr
    apply hm o m hmounted
  · intro o t ht
    obtain ⟨⟨m, hmounted⟩, -⟩ := (h o).textured t ht
    apply hm o m hmounted

end Studio

namespace FrameLoop

variable {l : FrameLoop} {config : Config} {kind : ObjectId → ObjectKind}

/-- Every move of an orderly loop keeps the accounts. -/
theorem accounted_run (h : l.Orderly config kind) (ha : l.studio.Accounted) {m : Move}
    (hm : m.Respects kind) :
  (m.run l).studio.Accounted
  := by
  cases m with
  | deed d => apply ha.idle (idles_run_deed l d)
  | addWindow c s => apply ha.idle (addWindow_spec l c s).2
  | restyle => apply ha.idle (restyle_spec l).2
  | frame deeds =>
    rw [run_frame h.queue]
    split
    · apply ha
    · -- Until the animations move no resource is touched, and from then on the clock is on record.
      have hpolled := (h.polled hm).animated
      have hfresh : (l.polled deeds).animated.studio.host.Fresh := by
        rw [studio_animated]
        apply Host.fresh_record
      apply (course_finished (l.polled deeds)).accounted hpolled.regular hfresh
      apply (ha.idle (idles_polled l deeds)).idle
      rw [studio_animated]
      apply Studio.Idles.record
      trivial
  | _ => apply ha

/-- No resource survives the windows.  Whatever is done to a new loop in which every object is
always drawn as the same kind, once there is no window all that the studio held is given back:
every renderer ever created was destroyed and released, once, and every texture ever uploaded
was deleted, once. -/
theorem given_back_of_no_windows (layouts : Layouts) (config : Config) (policy : Policy)
    (hp : policy.Calm) (kind : ObjectId → ObjectKind) (moves : List Move)
    (hm : ∀ m ∈ moves, m.Respects kind)
    (hw : ((ofConfig layouts config policy).play moves).windows = [])
    (hearly : ((ofConfig layouts config policy).play moves).studio.host.log.Early) :
  let s := ((ofConfig layouts config policy).play moves).studio
  (s.inventory.mountings.toList = [] ∧ s.inventory.renderers.toList = []
      ∧ s.inventory.textures.toList = [])
    ∧ s.host.log.created.Nodup
    ∧ s.host.log.destroyed.Perm s.host.log.created
    ∧ s.host.log.released = s.host.log.destroyed.map Prod.fst
    ∧ s.host.log.deleted.Perm s.host.log.uploaded
  := by
  intro s
  obtain ⟨horderly, haccounted⟩ : ((ofConfig layouts config policy).play moves).Orderly config kind
      ∧ s.Accounted := by
    apply orderly_play_invariant (I := fun l => l.studio.Accounted) hp hm
    · intro l m ho hm ha
      apply accounted_run ho ha hm
    · apply Studio.accounted_ofConfig
  have hnothing : ∀ c, ¬ ((ofConfig layouts config policy).play moves).Shows c := by
    intro c hc
    rw [Shows, hw] at hc
    cases hc
  obtain ⟨hmountings, hrenderers, htextures⟩ := horderly.sound.nothing_held hnothing
  obtain ⟨hdestroyed, hdeleted⟩ := haccounted.given_back hearly hrenderers htextures
  use ⟨hmountings, hrenderers, htextures⟩, haccounted.renderers.nodup_created, hdestroyed
  use haccounted.renderers.released

/-- Two windows that share a widget are drawn, and closed one after the other once the renderer
of the widget has expired. -/
def twoWindows : List Move :=
  [.deed (.edit ⟨1⟩ (.addRoot (.ofTexture ⟨10⟩) .origin)),
    .deed (.edit ⟨1⟩ (.addRoot (.widget ⟨11⟩) .origin)),
    .deed (.edit ⟨2⟩ (.addRoot (.widget ⟨11⟩) .origin)),
    .addWindow ⟨1⟩ ⟨1⟩, .addWindow ⟨2⟩ ⟨2⟩, .frame [],
    .deed (.clock (.ofNanos 70000000000)), .deed (.edit ⟨2⟩ .setDirty),
    .frame [.surface ⟨1⟩ { closing := true }], .frame [.surface ⟨2⟩ { closing := true }]]

theorem given_back_of_twoWindows :
  let s := ((ofConfig .spread .standard .prompt).play twoWindows).studio
  s.host.log.uploaded = [(⟨10⟩, ⟨1⟩)] ∧ s.host.log.created = [(⟨11⟩, ⟨2⟩), (⟨11⟩, ⟨1⟩)]
    ∧ s.inventory.mountings.toList = []
    ∧ s.host.log.destroyed.Perm s.host.log.created
    ∧ s.host.log.deleted.Perm s.host.log.uploaded
  := by
  intro s
  let kind : ObjectId → ObjectKind := fun o => if o = ⟨11⟩ then .widget else .plain
  have hcalm : Policy.prompt.Calm := fun _ _ _ => rfl
  have hrespects : ∀ m ∈ twoWindows, m.Respects kind := by
    simp [twoWindows, Move.Respects, Deed.Respects, Edit.Respects, Node.Fits, Node.ofTexture,
      Node.widget, kind]
  obtain ⟨⟨hm, -, -⟩, -, hd, -, ht⟩ := given_back_of_no_windows .spread .standard .prompt hcalm kind
    twoWindows hrespects (by decide +kernel) (by decide +kernel)
  constructor
  · decide +kernel
  constructor
  · decide +kernel
  · dsimp only [s]
    exact ⟨hm, hd, ht⟩

end FrameLoop

end FrameCache
