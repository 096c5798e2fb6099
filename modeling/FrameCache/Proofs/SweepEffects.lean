import FrameCache.Proofs.Removals

/-!
# The effect of a sweep

A sweep that is skipped does nothing, and a light one drops the font metrics and icons whose
deadline has passed.  What a full sweep leaves of an object is read off its belongings: a mounting
stays while it is alive or its canvas is not in scope, a renderer while it is alive, a theme unless
the renderer of its object has lapsed, and a texture unless that is so or its object, not being a
widget, is unmounted.
-/

namespace FrameCache

namespace Belongings

variable {o : ObjectId} {now : Instant} {inScope : CanvasId → Bool} {b : Belongings}

/-- The deadline of the renderer has passed. -/
def Lapsed (now : Instant) (b : Belongings) : Prop :=
  ∃ r, b.renderer = some r ∧ r.deadline ≤ now

/-- The deadline of the mounting has passed, and its canvas is in scope. -/
def Unmounted (now : Instant) (inScope : CanvasId → Bool) (b : Belongings) (m : Entry Mounting) :
    Prop :=
  b.mounting = some m ∧ m.deadline ≤ now ∧ inScope m.value.canvas = true

/-- Nothing but a lapsed renderer is dismantled, and with it the texture and the theme. -/
theorem dismantle_cases (o : ObjectId) (now : Instant) (b : Belongings) :
  (¬ b.Lapsed now ∧ b.dismantle o (some now) = b)
    ∨ (b.Lapsed now ∧ (b.dismantle o (some now)).renderer = none
      ∧ (b.dismantle o (some now)).texture = none ∧ (b.dismantle o (some now)).theme = none)
  := by
  cases h : b.renderer.filter (Entry.lapsedBy (some now)) with
  | none =>
    refine Or.inl ⟨?_, dismantle_of_none h⟩
    rintro ⟨r, hr, hle⟩
    exact Option.filter_eq_none_iff.1 h r hr (decide_eq_true hle)
  | some r =>
    obtain ⟨hr, hlapsed⟩ := Option.filter_eq_some_iff.1 h
    rw [dismantle_of_some h]
    exact Or.inr ⟨⟨r, hr, of_decide_eq_true hlapsed⟩, rfl, rfl, rfl⟩

theorem renderer_dismantle {r : Entry Renderer} :
  (b.dismantle o (some now)).renderer = some r ↔ b.renderer = some r ∧ now < r.deadline
  := by
  rw [Instant.lt_iff]
  rcases dismantle_cases o now b with ⟨hnot, h⟩ | ⟨⟨r', hr', hle⟩, h, -⟩
  · rw [h, iff_self_and]
    intro hr
    exact Nat.lt_of_not_le fun hle => hnot ⟨r, hr, Instant.le_iff.2 hle⟩
  · rw [h, hr']
    constructor
    · intro hr
      cases hr
    · rintro ⟨hr, hlt⟩
      cases hr
      exact absurd (Instant.le_iff.1 hle) (Nat.not_le.2 hlt)

theorem texture_dismantle {t : Entry Texture} :
  (b.dismantle o (some now)).texture = some t ↔ b.texture = some t ∧ ¬ b.Lapsed now
  := by
  rcases dismantle_cases o now b with ⟨hnot, h⟩ | ⟨hlapsed, -, h, -⟩
  · simp [h, hnot]
  · simp [h, hlapsed]

theorem theme_dismantle {t : Entry WidgetTheme} :
  (b.dismantle o (some now)).theme = some t ↔ b.theme = some t ∧ ¬ b.Lapsed now
  := by
  rcases dismantle_cases o now b with ⟨hnot, h⟩ | ⟨hlapsed, -, -, h⟩
  · simp [h, hnot]
  · simp [h, hlapsed]

/-- Once dismantled a renderer has not lapsed any more. -/
theorem not_lapsed_dismantle :
  ¬ (b.dismantle o (some now)).Lapsed now
  := by
  rcases dismantle_cases o now b with ⟨hnot, h⟩ | ⟨-, h, -⟩
  · rwa [h]
  · rintro ⟨r, hr, -⟩
    rw [h] at hr
    cases hr

/-- Expiry does nothing, or dismantles a widget, or deletes a texture. -/
theorem expire_cases (o : ObjectId) (now : Instant) (inScope : CanvasId → Bool) (b : Belongings) :
  (b.expire o now inScope = b ∧ ∀ m, ¬ b.Unmounted now inScope m)
    ∨ (∃ m, b.Unmounted now inScope m ∧ m.value.kind = .widget
      ∧ b.expire o now inScope
        = ({ b with mounting := none } : Belongings).dismantle o (some now))
    ∨ (∃ m, b.Unmounted now inScope m ∧ m.value.kind = .plain
      ∧ b.expire o now inScope = ({ b with mounting := none } : Belongings).dropTexture o)
  := by
  by_cases h : ∃ m, b.Unmounted now inScope m
  · obtain ⟨m, hm, hle, hscope⟩ := h
    rw [expire_of_lapsed hm hscope hle]
    cases hk : m.value.kind with
    | widget => exact Or.inr (Or.inl ⟨m, ⟨hm, hle, hscope⟩, hk, rfl⟩)
    | plain => exact Or.inr (Or.inr ⟨m, ⟨hm, hle, hscope⟩, hk, rfl⟩)
  · rw [not_exists] at h
    refine Or.inl ⟨expire_of_kept ?_, h⟩
    exact fun m hm hscope hle => h m ⟨hm, hle, hscope⟩

/-! ### What a full sweep leaves -/

theorem mounting_sweep_iff {m : Entry Mounting} :
  (b.sweep o now inScope).mounting = some m ↔ b.mounting = some m ∧ ¬ b.Unmounted now inScope m
  := by
  rw [mounting_sweep, Option.filter_eq_some_iff, Unmounted]
  apply and_congr_right
  intro hm
  simp [hm, imp_iff_or_not]

theorem renderer_sweep {r : Entry Renderer} :
  (b.sweep o now inScope).renderer = some r ↔ b.renderer = some r ∧ now < r.deadline
  := by
  rw [sweep, renderer_dismantle]
  rcases expire_cases o now inScope b with ⟨h, -⟩ | ⟨m, -, -, h⟩ | ⟨m, -, -, h⟩
  · rw [h]
  · rw [h, renderer_dismantle, and_assoc, and_self_iff]
  · rw [h]
    rfl

theorem texture_sweep {t : Entry Texture} :
  (b.sweep o now inScope).texture = some t
    ↔ b.texture = some t ∧ ¬ b.Lapsed now
      ∧ ∀ m, b.Unmounted now inScope m → m.value.kind ≠ .plain
  := by
  rw [sweep, texture_dismantle]
  rcases expire_cases o now inScope b with ⟨h, hnone⟩ | ⟨m, hm, hk, h⟩ | ⟨m, hm, hk, h⟩
  · rw [h]
    simp [hnone]
  · have hkind : ∀ m', b.Unmounted now inScope m' → m'.value.kind ≠ .plain := by
      rintro m' ⟨hm', -⟩ hplain
      cases hm.1.symm.trans hm'
      rw [hk] at hplain
      cases hplain
    rw [h, texture_dismantle]
    constructor
    · rintro ⟨⟨ht, hlapsed⟩, -⟩
      exact ⟨ht, hlapsed, hkind⟩
    · rintro ⟨ht, hlapsed, -⟩
      exact ⟨⟨ht, hlapsed⟩, not_lapsed_dismantle⟩
  · rw [h]
    constructor
    · rintro ⟨ht, -⟩
      cases ht
    · rintro ⟨-, -, hkind⟩
      exact absurd hk (hkind m hm)

theorem theme_sweep {t : Entry WidgetTheme} :
  (b.sweep o now inScope).theme = some t ↔ b.theme = some t ∧ ¬ b.Lapsed now
  := by
  rw [sweep, theme_dismantle]
  rcases expire_cases o now inScope b with ⟨h, -⟩ | ⟨m, -, -, h⟩ | ⟨m, -, -, h⟩
  · rw [h]
  · rw [h, theme_dismantle]
    exact ⟨And.left, fun ht => ⟨ht, not_lapsed_dismantle⟩⟩
  · rw [h]
    rfl

end Belongings

namespace Cache

variable {K V : Type}

theorem size_takeLapsed (c : Cache K V) (at' : Instant) :
  (c.takeLapsed at').1.length + (c.takeLapsed at').2.size = c.size
  := by
  have hlength := (c.toList_takeLapsed at').length_eq
  rw [List.length_append] at hlength
  rw [size_eq_length_toList, size_eq_length_toList, ← hlength, Nat.add_comm]
  rfl

end Cache

namespace Studio

variable {s : Studio} {repainted : Bool} {refreshed : List CanvasId}

/-! ### Sweeps by their depth -/

theorem sweep_of_skipped (h : (s.decision repainted refreshed).depth = .skipped) :
  s.sweep repainted refreshed = (.skipped, s.planned repainted refreshed)
  := by
  rw [decision] at h
  rw [sweep]
  dsimp only
  rw [h]
  rfl

/-- A light sweep drops values only. -/
theorem sweep_of_light (h : (s.decision repainted refreshed).depth = .light) :
  s.sweep repainted refreshed
    = let values := (s.planned repainted refreshed).sweepValues s.now
      (⟨.light, values.1, 0, 0⟩, values.2)
  := by
  rw [decision] at h
  rw [sweep]
  dsimp only
  rw [h]
  rfl

/-- A full sweep drops values, and then objects and renderers. -/
theorem sweep_of_full (h : (s.decision repainted refreshed).depth = .full) :
  s.sweep repainted refreshed
    = let values := (s.planned repainted refreshed).sweepValues s.now
      let objects := values.2.sweepObjects s.now (s.decision repainted refreshed).canvases
      (⟨.full, values.1, objects.1.1, objects.1.2⟩, objects.2)
  := by
  rw [decision] at h
  rw [sweep, decision]
  dsimp only
  rw [h]
  simp only [planned]

/-! ### Values -/

/-- A sweep that is not skipped drops the font metrics and icons that have lapsed, and counts
them. -/
theorem values_sweep (h : (s.decision repainted refreshed).depth ≠ .skipped) :
  (s.sweep repainted refreshed).2.inventory.texts = (s.inventory.texts.takeLapsed s.now).2
    ∧ (s.sweep repainted refreshed).2.inventory.icons = (s.inventory.icons.takeLapsed s.now).2
    ∧ (s.sweep repainted refreshed).1.valuesRemoved
      = (s.inventory.icons.takeLapsed s.now).1.length
        + (s.inventory.texts.takeLapsed s.now).1.length
  := by
  cases hd : (s.decision repainted refreshed).depth with
  | skipped => exact absurd hd h
  | light =>
    rw [sweep_of_light hd]
    exact ⟨rfl, rfl, rfl⟩
  | full =>
    rw [sweep_of_full hd]
    dsimp only
    obtain ⟨_, _, hremoves, -⟩ := removes_sweepObjects
      ((s.planned repainted refreshed).sweepValues s.now).2 s.now
      (s.decision repainted refreshed).canvases
    rw [hremoves.texts, hremoves.icons]
    exact ⟨rfl, rfl, rfl⟩

/-! ### Objects -/

theorem inScope_eq_true {c : CanvasId} {canvases : List CanvasId} :
  s.inScope c canvases = true ↔ c ∈ canvases ∨ c ∉ s.inventory.registered
  := by
  simp [inScope, Inventory.isRegistered]

/-- What a full sweep does to an object. -/
theorem belongings_sweep_of_full (h : (s.decision repainted refreshed).depth = .full)
    (o : ObjectId) :
  (s.sweep repainted refreshed).2.belongings o
    = (s.belongings o).sweep o s.now fun c =>
        s.inScope c (s.decision repainted refreshed).canvases
  := by
  rw [belongings_sweep, if_pos h]

/-- A full sweep counts the mountings that it removes, and the renderers, which it destroys. -/
theorem removes_sweep (h : (s.decision repainted refreshed).depth = .full) :
  ∃ unmounted gone, Removes ((s.planned repainted refreshed).sweepValues s.now).2
      (s.sweep repainted refreshed).2 unmounted gone
    ∧ unmounted.length = (s.sweep repainted refreshed).1.objectsUnmounted
    ∧ gone.length = (s.sweep repainted refreshed).1.renderersDestroyed
  := by
  rw [sweep_of_full h]
  dsimp only
  apply removes_sweepObjects

/-- The effect of a sweep at `s.now`, as the schedule plans it.  A sweep that is skipped changes
the schedule only.  Any other drops the font metrics and icons whose deadline has passed, and
counts them; a light one does nothing else.  A full sweep leaves the mountings that are alive or
whose canvas is registered and not planned, the renderers that are alive, the themes of the objects
whose renderer has not lapsed, and their textures unless the object is plain and was unmounted.  It
counts the mountings that it removes, and the renderers, each of which it destroys. -/
theorem sweep_effects (s : Studio) (repainted : Bool) (refreshed : List CanvasId) :
  let plan := s.decision repainted refreshed
  let report := (s.sweep repainted refreshed).1
  let after := (s.sweep repainted refreshed).2
  let Lapsed (o : ObjectId) : Prop := ∃ r, s.renderer? o = some r ∧ r.deadline ≤ s.now
  let Unmounted (o : ObjectId) (m : Entry Mounting) : Prop := s.mounting? o = some m
    ∧ m.deadline ≤ s.now
    ∧ (m.value.canvas ∈ plan.canvases ∨ m.value.canvas ∉ s.inventory.registered)
  report.depth = plan.depth
    ∧ (plan.depth = .skipped → report = .skipped
      ∧ after = { s with inventory.schedule := after.inventory.schedule })
    ∧ (plan.depth ≠ .skipped →
      (∀ k e, after.inventory.texts.store.find? k = some e
        ↔ s.inventory.texts.store.find? k = some e ∧ s.now < e.deadline)
      ∧ (∀ k e, after.inventory.icons.store.find? k = some e
        ↔ s.inventory.icons.store.find? k = some e ∧ s.now < e.deadline)
      ∧ report.valuesRemoved + after.inventory.texts.size + after.inventory.icons.size
        = s.inventory.texts.size + s.inventory.icons.size)
    ∧ (plan.depth = .light → report.objectsUnmounted = 0 ∧ report.renderersDestroyed = 0
      ∧ after.inventory.mountings = s.inventory.mountings
      ∧ after.inventory.renderers = s.inventory.renderers
      ∧ after.inventory.textures = s.inventory.textures
      ∧ after.inventory.themes = s.inventory.themes
      ∧ after.host = s.host)
    ∧ (plan.depth = .full →
      (∀ o m, after.mounting? o = some m ↔ s.mounting? o = some m ∧ ¬ Unmounted o m)
      ∧ (∀ o r, after.renderer? o = some r ↔ s.renderer? o = some r ∧ s.now < r.deadline)
      ∧ (∀ o t, after.texture? o = some t ↔ s.texture? o = some t ∧ ¬ Lapsed o
        ∧ ∀ m, Unmounted o m → m.value.kind ≠ .plain)
      ∧ (∀ o t, after.theme? o = some t ↔ s.theme? o = some t ∧ ¬ Lapsed o)
      ∧ report.objectsUnmounted + after.inventory.mountings.size = s.inventory.mountings.size
      ∧ ∃ gone, gone.length = report.renderersDestroyed
        ∧ after.host.log.destroyed = gone ++ s.host.log.destroyed
        ∧ (after.inventory.renderers.toList ++ gone).Perm s.inventory.renderers.toList)
  := by
  intro plan report after Lapsed Unmounted
  have hafter : after = (s.sweep repainted refreshed).2 := rfl
  have hreport : report = (s.sweep repainted refreshed).1 := rfl
  refine ⟨s.depth_sweep repainted refreshed, ?skipped, ?values, ?light, ?full⟩
  case skipped =>
    intro h
    rw [hreport, hafter, sweep_of_skipped h]
    exact ⟨rfl, rfl⟩
  case values =>
    intro h
    obtain ⟨htexts, hicons, hcount⟩ := values_sweep h
    have htextsSize := s.inventory.texts.size_takeLapsed s.now
    have hiconsSize := s.inventory.icons.size_takeLapsed s.now
    rw [hreport, hafter, htexts, hicons, hcount]
    refine ⟨fun k e => Cache.find?_takeLapsed_eq_some,
      fun k e => Cache.find?_takeLapsed_eq_some, ?_⟩
    omega
  case light =>
    intro h
    rw [hreport, hafter, sweep_of_light h]
    exact ⟨rfl, rfl, rfl, rfl, rfl, rfl, rfl⟩
  case full =>
    intro h
    have hunmounted : ∀ o m, (s.belongings o).Unmounted s.now
        (fun c => s.inScope c (s.decision repainted refreshed).canvases) m ↔ Unmounted o m := by
      intro o m
      rw [Belongings.Unmounted, inScope_eq_true]
      rfl
    obtain ⟨unmounted, gone, hremoves, hcount, hdestroyed⟩ := removes_sweep h
    refine ⟨?mountings, ?renderers, ?textures, ?themes, ?counted,
      gone, hdestroyed, hremoves.destroyed, hremoves.renderers⟩
    case mountings =>
      intro o m
      have hswept := congrArg Belongings.mounting (belongings_sweep_of_full h o)
      rw [show after.mounting? o = _ from hswept, Belongings.mounting_sweep_iff, hunmounted]
      rfl
    case renderers =>
      intro o r
      have hswept := congrArg Belongings.renderer (belongings_sweep_of_full h o)
      rw [show after.renderer? o = _ from hswept, Belongings.renderer_sweep]
      rfl
    case textures =>
      intro o t
      have hswept := congrArg Belongings.texture (belongings_sweep_of_full h o)
      rw [show after.texture? o = _ from hswept, Belongings.texture_sweep]
      simp only [hunmounted]
      rfl
    case themes =>
      intro o t
      have hswept := congrArg Belongings.theme (belongings_sweep_of_full h o)
      rw [show after.theme? o = _ from hswept, Belongings.theme_sweep]
      rfl
    case counted =>
      rw [hreport, ← hcount]
      exact hremoves.size_mountings

end Studio

end FrameCache
