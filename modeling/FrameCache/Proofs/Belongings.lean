import FrameCache.Proofs.Teardown
import FrameCache.Proofs.Upkeep

/-!
# What belongs to an object

The `Belongings` of an object are its entries and the calls about it.  What a studio does to an
object and to its resources depends on its belongings alone, and it leaves those of all other
objects as they are: giving back resources is a function on belongings.

Forgetting a canvas is `Belongings.forget` for every object at once.  It gives back all that
belongs to a widget with a renderer and the texture of any other object; but the texture of a
widget without renderer, and the theme and the renderer of an object that is not a widget, stay.
-/

namespace FrameCache

/-- The object that a call is about. -/
def Event.object? : Event → Option ObjectId
  | .rendererCreated o _ | .rendererDestroyed o _ | .rendererReleased o => some o
  | .textureCreated o _ | .textureDeleted o _ => some o
  | .painted o _ _ => some o
  | _ => none

/-- The calls about an object, the latest first. -/
def Log.about (l : Log) (o : ObjectId) : List Event :=
  l.events.filter fun e => e.object? = some o

/-- Calls about one object are not about any other. -/
theorem Host.about_recordAll (h : Host) (o : ObjectId) (es : List Event)
    (hes : ∀ e ∈ es, e.object? = some o) (o' : ObjectId) :
  (h.recordAll es).log.about o'
    = if o' = o then es.reverse ++ h.log.about o else h.log.about o'
  := by
  rw [Log.about, events_recordAll, List.filter_append]
  split
  · rename_i ho
    rw [ho, List.filter_eq_self.2]
    · rfl
    · intro e he
      rw [hes e (List.mem_reverse.1 he)]
      simp
  · rename_i ho
    rw [List.filter_eq_nil_iff.2]
    · rfl
    · intro e he
      rw [hes e (List.mem_reverse.1 he)]
      simpa using! Ne.symm ho

/-- The entries of an object and the calls about it. -/
@[ext]
structure Belongings where
  /-- The entry among the mountings. -/
  mounting : Option (Entry Mounting)
  /-- The entry among the renderers. -/
  renderer : Option (Entry Renderer)
  /-- The entry among the textures. -/
  texture : Option (Entry Texture)
  /-- The entry among the themes. -/
  theme : Option (Entry WidgetTheme)
  /-- The calls about the object, the latest first. -/
  calls : List Event

namespace Belongings

variable (o : ObjectId)

/-- The texture is deleted. -/
def dropTexture (b : Belongings) : Belongings :=
  { b with
    texture := none
    calls := (b.texture.map fun t => Event.textureDeleted o t.value).toList ++ b.calls }

/-- The renderer is destroyed if it counts as lapsed, and the texture and the theme go with it. -/
def dismantle (expiredAt : Option Instant) (b : Belongings) : Belongings :=
  match b.renderer.filter (Entry.lapsedBy expiredAt) with
  | none => b
  | some r =>
    let calls := .rendererReleased o :: .rendererDestroyed o r.value :: b.calls
    { { b with renderer := none, calls }.dropTexture o with theme := none }

/-- What belongs to an object of kind `kind` is given back. -/
def release (kind : ObjectKind) (expiredAt : Option Instant) (b : Belongings) : Belongings :=
  match kind with
  | .widget => b.dismantle o expiredAt
  | .plain => b.dropTexture o

/-- The object is unmounted if it is mounted on `c`, and what belongs to it is given back. -/
def forget (c : CanvasId) (b : Belongings) : Belongings :=
  match b.mounting.filter (·.value.canvas = c) with
  | none => b
  | some m => { b with mounting := none }.release o m.value.kind none

variable {o} {c : CanvasId} {b : Belongings}

theorem dismantle_of_none {expiredAt : Option Instant}
    (h : b.renderer.filter (Entry.lapsedBy expiredAt) = none) :
  b.dismantle o expiredAt = b
  := by
  rw [dismantle, h]

/-- A renderer that has lapsed is given back with the texture and the theme of the object. -/
theorem dismantle_of_some {expiredAt : Option Instant} {r : Entry Renderer}
    (h : b.renderer.filter (Entry.lapsedBy expiredAt) = some r) :
  b.dismantle o expiredAt = { b with
    renderer := none
    texture := none
    theme := none
    calls := (b.texture.map fun t => Event.textureDeleted o t.value).toList
      ++ .rendererReleased o :: .rendererDestroyed o r.value :: b.calls }
  := by
  rw [dismantle, h]
  rfl

/-- An object that is not mounted on a canvas is not forgotten with it. -/
theorem forget_of_not_mounted (h : ∀ m, b.mounting = some m → m.value.canvas ≠ c) :
  b.forget o c = b
  := by
  rw [forget, Option.filter_eq_none_iff.2]
  intro m hm
  simpa using h m hm

/-- What belongs to an object that is mounted on a canvas is given back with it. -/
theorem forget_of_mounted {m : Entry Mounting} (hm : b.mounting = some m)
    (hc : m.value.canvas = c) :
  b.forget o c = ({ b with mounting := none } : Belongings).release o m.value.kind none
  := by
  rw [forget, hm, Option.filter_some, if_pos (by simpa using hc)]

theorem mounting_release (kind : ObjectKind) (expiredAt : Option Instant) :
  (b.release o kind expiredAt).mounting = b.mounting
  := by
  cases kind with
  | widget =>
    rw [release, dismantle]
    split
    · rfl
    · rfl
  | plain => rfl

/-- A forgotten object is not mounted on the canvas any more. -/
theorem not_mounted_forget :
  ∀ m, (b.forget o c).mounting = some m → m.value.canvas ≠ c
  := by
  intro m h hc
  by_cases hb : ∃ m, b.mounting = some m ∧ m.value.canvas = c
  · obtain ⟨m', hm', hc'⟩ := hb
    rw [forget_of_mounted hm' hc', mounting_release] at h
    cases h
  · have hnot : ∀ m, b.mounting = some m → m.value.canvas ≠ c := fun m hm hc => hb ⟨m, hm, hc⟩
    rw [forget_of_not_mounted hnot] at h
    apply hnot m h hc

theorem forget_forget :
  (b.forget o c).forget o c = b.forget o c
  := forget_of_not_mounted not_mounted_forget

end Belongings

namespace Studio

/-- What belongs to `o`. -/
def belongings (s : Studio) (o : ObjectId) : Belongings where
  mounting := s.mounting? o
  renderer := s.renderer? o
  texture := s.texture? o
  theme := s.theme? o
  calls := s.host.log.about o

/-- An object keeps its belongings if its entries and the calls about it are the same. -/
theorem belongings_congr {s s' : Studio} {o : ObjectId} (hmounting : s'.mounting? o = s.mounting? o)
    (hrenderer : s'.renderer? o = s.renderer? o) (htexture : s'.texture? o = s.texture? o)
    (htheme : s'.theme? o = s.theme? o) (hcalls : s'.host.log.about o = s.host.log.about o) :
  s'.belongings o = s.belongings o
  := Belongings.ext hmounting hrenderer htexture htheme hcalls

variable (s : Studio) (o o' : ObjectId)

/-- The call that deletes the texture of an object. -/
theorem reverse_deletions :
  ((s.inventory.textures.resident o).toList.map (Event.textureDeleted o)).reverse
    = ((s.texture? o).map fun t => Event.textureDeleted o t.value).toList
  := by
  rw [Cache.resident, texture?]
  cases s.inventory.textures.store.find? o with
  | none => rfl
  | some t => rfl

/-- Deleting a texture concerns one object. -/
theorem belongings_dropTexture :
  (s.dropTexture o).2.belongings o'
    = if o' = o then (s.belongings o).dropTexture o else s.belongings o'
  := by
  have htexture := s.texture?_dropTexture o o'
  have hcalls := s.host.about_recordAll o
    ((s.inventory.textures.resident o).toList.map (Event.textureDeleted o))
    (by simp [Event.object?]) o'
  rw [dropTexture_eq] at htexture ⊢
  split
  · rename_i ho
    subst ho
    rw [if_pos rfl] at htexture
    rw [if_pos rfl, reverse_deletions] at hcalls
    ext1
    · rfl
    · rfl
    · apply htexture
    · rfl
    · apply hcalls
  · rename_i ho
    rw [if_neg ho] at htexture hcalls
    exact belongings_congr rfl rfl htexture rfl hcalls

/-- Dismantling concerns one object. -/
theorem belongings_dismantle (expiredAt : Option Instant) :
  (s.dismantle o expiredAt).2.belongings o'
    = if o' = o then (s.belongings o).dismantle o expiredAt else s.belongings o'
  := by
  cases hr : (s.belongings o).renderer.filter (Entry.lapsedBy expiredAt) with
  | none =>
    have hl : s.lapsedRenderer o expiredAt = none := congrArg (Option.map Entry.value) hr
    rw [Belongings.dismantle_of_none hr, Studio.dismantle_of_none hl]
    split
    · rename_i ho
      rw [ho]
    · rfl
  | some r =>
    have hl : s.lapsedRenderer o expiredAt = some r.value :=
      congrArg (Option.map Entry.value) hr
    have hrenderer := s.renderer?_dismantle o o' expiredAt
    have htexture := s.texture?_dismantle o o' expiredAt
    have htheme := s.theme?_dismantle o o' expiredAt
    have hcalls := s.host.about_recordAll o
      (.rendererDestroyed o r.value :: .rendererReleased o
        :: (s.inventory.textures.resident o).toList.map (Event.textureDeleted o))
      (by simp [Event.object?]) o'
    rw [hl] at htexture htheme
    rw [Belongings.dismantle_of_some hr]
    rw [Studio.dismantle_of_some hl] at hrenderer htexture htheme ⊢
    split
    · rename_i ho
      subst ho
      rw [if_pos rfl] at hrenderer hcalls
      rw [if_pos ⟨rfl, rfl⟩] at htexture htheme
      rw [List.reverse_cons, List.reverse_cons, reverse_deletions] at hcalls
      have hnone : (s.renderer? o').filter (fun e => !e.lapsedBy expiredAt) = none := by
        obtain ⟨he, hlapsed⟩ := Option.filter_eq_some_iff.1 hr
        rw [show s.renderer? o' = some r from he, Option.filter_some, hlapsed]
        rfl
      ext1
      · rfl
      · apply hrenderer.trans hnone
      · apply htexture
      · apply htheme
      · apply hcalls.trans
        simp [belongings]
    · rename_i ho
      rw [if_neg ho] at hrenderer hcalls
      rw [if_neg fun h => ho h.1] at htexture htheme
      exact belongings_congr rfl hrenderer htexture htheme hcalls

/-- Giving back what an object owns concerns this object. -/
theorem belongings_release (kind : ObjectKind) (expiredAt : Option Instant) :
  (s.release o kind expiredAt).2.belongings o'
    = if o' = o then (s.belongings o).release o kind expiredAt else s.belongings o'
  := by
  cases kind with
  | widget => apply belongings_dismantle
  | plain => apply belongings_dropTexture

/-! ### Forgetting a canvas -/

/-- Forgetting an object concerns this object. -/
theorem belongings_forgetObject (c : CanvasId) (m : Mounting) (w : Nat × Studio) :
  (forgetObject c o m w).2.2.belongings o'
    = if o' = o then (w.2.belongings o).forget o c else w.2.belongings o'
  := by
  obtain ⟨n, s⟩ := w
  rw [forgetObject]
  dsimp only
  split
  · rename_i mountings hv
    obtain ⟨hnone, -⟩ := Cache.takeIf_eq_none hv
    have hnot : ∀ m, (s.belongings o).mounting = some m → m.value.canvas ≠ c := by
      intro m hm
      simpa using hnone m hm
    rw [Belongings.forget_of_not_mounted hnot]
    split
    · rename_i ho
      rw [ho]
    · rfl
  · rename_i v mountings hv
    obtain ⟨e, he, hc, rfl, rfl⟩ := Cache.takeIf_eq_some hv
    have hb : (s.belongings o).mounting = some e := he
    rw [belongings_release, Belongings.forget_of_mounted hb (by simpa using hc)]
    split
    · congr 1
      ext1
      · apply (Store.find?_erase _ _ _).trans
        rw [if_pos rfl]
      · rfl
      · rfl
      · rfl
      · rfl
    · rename_i ho
      refine belongings_congr ?_ rfl rfl rfl rfl
      apply (Store.find?_erase _ _ _).trans
      rw [if_neg ho]
      rfl

/-- Forgetting a canvas is forgetting every object, whatever else is mounted. -/
theorem belongings_forgetCanvas (c : CanvasId) :
  (s.forgetCanvas c).2.belongings o = (s.belongings o).forget o c
  := by
  have hsame : ((s.forgetCanvas c).2.belongings o).forget o c = (s.belongings o).forget o c := by
    apply Cache.visitAll_invariant (I := fun w : Nat × Studio =>
      (w.2.belongings o).forget o c = (s.belongings o).forget o c) (fst_forgetObject c)
    · intro o' m w h
      rw [belongings_forgetObject]
      split
      · rename_i ho
        rw [← ho, Belongings.forget_forget, h]
      · apply h
    · rfl
  rw [← hsame, Belongings.forget_of_not_mounted]
  intro m hm
  have hnotOn : notOn c (s.mounting? o) = some m := by
    rw [← mounting?_forgetCanvas, ← hm]
    rfl
  simpa using (Option.filter_eq_some_iff.1 hnotOn).2

/-- What is left of an object after the canvas that it was mounted on was forgotten.  All that
belonged to a widget with a renderer was given back; a widget without renderer keeps its texture
and its theme, and any other object loses its texture alone. -/
theorem belongings_forgetCanvas_of_mounted {c : CanvasId} {m : Entry Mounting}
    (hm : s.mounting? o = some m) (hc : m.value.canvas = c) :
  let before := s.belongings o
  let after := (s.forgetCanvas c).2.belongings o
  let deleted := (before.texture.map fun t => Event.textureDeleted o t.value).toList
  (m.value.kind = .widget → ∀ r, before.renderer = some r →
      after = ⟨none, none, none, none,
        deleted ++ .rendererReleased o :: .rendererDestroyed o r.value :: before.calls⟩)
    ∧ (m.value.kind = .widget → before.renderer = none → after = { before with mounting := none })
    ∧ (m.value.kind = .plain → after = { before with
      mounting := none
      texture := none
      calls := deleted ++ before.calls })
    ∧ (after = ⟨none, none, none, none, after.calls⟩
      ↔ m.value.kind = .widget ∧
          (before.renderer = none → before.texture = none ∧ before.theme = none)
        ∨ m.value.kind = .plain ∧ before.renderer = none ∧ before.theme = none)
  := by
  intro before after deleted
  have hafter : after
      = ({ before with mounting := none } : Belongings).release o m.value.kind none := by
    rw [← Belongings.forget_of_mounted hm hc]
    apply belongings_forgetCanvas
  cases hk : m.value.kind with
  | widget =>
    rw [hk, Belongings.release] at hafter
    cases hr : before.renderer with
    | none =>
      have hnone : after = { before with mounting := none } := by
        rw [hafter, Belongings.dismantle_of_none (by rw [hr]; rfl), hr]
      simp [hnone, hr, Belongings.ext_iff]
    | some r =>
      have hsome : after = ⟨none, none, none, none,
          deleted ++ .rendererReleased o :: .rendererDestroyed o r.value :: before.calls⟩ := by
        rw [hafter, Belongings.dismantle_of_some (r := r) (by rw [hr]; rfl)]
      simp [hsome]
  | plain =>
    rw [hk, Belongings.release] at hafter
    have hplain : after = { before with
        mounting := none, texture := none, calls := deleted ++ before.calls } := hafter
    simp [hplain, Belongings.ext_iff]

/-- A widget with a renderer, a texture and a theme. -/
def themedWidget : List (Instant × Request) :=
  [(.ofNanos 1, .mount ⟨1⟩ ⟨⟨1⟩, .widget⟩), (.ofNanos 1, .renderer ⟨1⟩),
    (.ofNanos 2, .texture ⟨1⟩), (.ofNanos 3, .setTheme ⟨1⟩ ⟨"dark"⟩)]

theorem belongings_forgetCanvas_themedWidget :
  let s := (ofConfig .spread .standard .prompt).serveAll themedWidget
  ∃ r t, s.renderer? ⟨1⟩ = some r ∧ s.texture? ⟨1⟩ = some t ∧ (s.theme? ⟨1⟩).isSome
    ∧ (s.forgetCanvas ⟨1⟩).2.belongings ⟨1⟩ = ⟨none, none, none, none,
      .textureDeleted ⟨1⟩ t.value :: .rendererReleased ⟨1⟩ :: .rendererDestroyed ⟨1⟩ r.value
        :: s.host.log.about ⟨1⟩⟩
  := by
  intro s
  have hmounted : (s.mounting? ⟨1⟩).map Entry.value = some ⟨⟨1⟩, .widget⟩ := by decide +kernel
  have hrendered : (s.renderer? ⟨1⟩).isSome := by decide +kernel
  have htextured : (s.texture? ⟨1⟩).isSome := by decide +kernel
  obtain ⟨m, hm, hv⟩ := Option.map_eq_some_iff.1 hmounted
  obtain ⟨r, hr⟩ := Option.isSome_iff_exists.1 hrendered
  obtain ⟨t, ht⟩ := Option.isSome_iff_exists.1 htextured
  have hafter := (belongings_forgetCanvas_of_mounted s ⟨1⟩ hm (c := ⟨1⟩) (by rw [hv])).1
    (by rw [hv]) r hr
  use r, t, hr, ht, by decide +kernel
  rw [hafter, show (s.belongings ⟨1⟩).texture = some t from ht]
  rfl

/-- The texture of a widget that was never rendered stays, with nothing left to find it by. -/
theorem forgetCanvas_keeps_texture :
  let s := (ofConfig .spread .standard .prompt).serveAll
    [(.ofNanos 1, .mount ⟨1⟩ ⟨⟨1⟩, .widget⟩), (.ofNanos 1, .texture ⟨1⟩)]
  (s.mounting? ⟨1⟩).map (·.value.canvas) = some ⟨1⟩
    ∧ ((s.forgetCanvas ⟨1⟩).2.texture? ⟨1⟩).isSome
    ∧ (s.forgetCanvas ⟨1⟩).2.host.log.deleted = []
  := by
  decide +kernel

end Studio

end FrameCache
