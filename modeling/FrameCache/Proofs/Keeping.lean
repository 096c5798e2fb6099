import FrameCache.Proofs.Readings
import FrameCache.Proofs.Upkeep

/-!
# How long mountings are kept

The deadline of a mounting is only ever set to one lifetime after the reading of the clock, so
with a clock that does not go back it only moves on.  An object that is painted or walked at
some time after the instant `t` is kept from `t` on: if it is mounted at all, then for at least
one lifetime after `t`.  A sweep takes neither a mounting nor a renderer that is alive.
-/

namespace FrameCache

theorem Instant.after_le_after {s t : Instant} (h : s ≤ t) (d : Duration) :
  s.after d ≤ t.after d
  := by
  rw [le_iff] at h ⊢
  rw [nanos_after, nanos_after]
  omega

namespace Studio

variable {c : Config} {s s' : Studio} {P : Studio → Act → Prop} {t : Instant} {o : ObjectId}

/-! ### Deadlines of mountings -/

/-- An act leaves a mounting alone, drops it, or sets its deadline anew. -/
theorem mounting?_run (a : Act) {m : Entry Mounting} (h : (a.run s).mounting? o = some m) :
  s.mounting? o = some m ∨ m.deadline = s.now.after s.inventory.mountings.lifetime
  := by
  have hsame : (a.run s).inventory.mountings = s.inventory.mountings →
      s.mounting? o = some m := by
    intro hm
    rw [← h, mounting?, mounting?, hm]
  cases a with
  | canvasOf o' =>
    have hget : (s.inventory.mountings.get o' s.now).2.store.find? o = some m := h
    cases hp : s.inventory.mountings.peek o' s.now with
    | none =>
      rw [Cache.find?_get_of_not_live _ _ _ _ hp] at hget
      apply Or.inl hget
    | some v =>
      rw [Cache.find?_get_of_live _ _ _ _ hp] at hget
      split at hget
      · cases hget
        apply Or.inr rfl
      · apply Or.inl hget
  | mount o' m' =>
    have hmount : (s.inventory.mount o' m' s.now).mountings.store.find? o = some m := h
    rw [Inventory.find?_mount] at hmount
    split at hmount
    · cases hmount
      apply Or.inr rfl
    · apply Or.inl hmount
  | touch o' =>
    have htouch : (s.renew o').mounting? o = some m := h
    rw [mounting?_renew] at htouch
    split at htouch
    · obtain ⟨e, -, rfl⟩ := Option.map_eq_some_iff.1 htouch
      apply Or.inr rfl
    · apply Or.inl htouch
  | unmount o' cause accept =>
    have htake : (s.inventory.mountings.takeIf o' cause accept).2.store.find? o = some m := h
    rw [Cache.find?_takeIf] at htake
    split at htake
    · rename_i ho
      rw [ho]
      apply Or.inl (Option.filter_eq_some_iff.1 htake).1
    · apply Or.inl htake
  | dismantle o' expiredAt => apply Or.inl (hsame (mountings_dismantle s o' expiredAt))
  | dropTexture o' => apply Or.inl (hsame (mountings_dropTexture s o'))
  | call e => apply Or.inl (hsame rfl)
  | keepValues texts icons => apply Or.inl (hsame rfl)
  | present canvases => apply Or.inl (hsame rfl)
  | plan schedule => apply Or.inl (hsame rfl)
  | findRenderer o' => apply Or.inl (hsame rfl)
  | create o' => apply Or.inl (hsame rfl)
  | texture o' => apply Or.inl (hsame rfl)
  | setTheme o' th => apply Or.inl (hsame rfl)
  | themeOf o' => apply Or.inl (hsame rfl)

/-- If `o` is mounted, then at least for one lifetime after `t`. -/
def KeptFrom (c : Config) (t : Instant) (o : ObjectId) (s : Studio) : Prop :=
  ∀ m, s.mounting? o = some m → t.after c.lifetime ≤ m.deadline

theorem KeptFrom.mono {t' : Instant} (h : s.KeptFrom c t o) (ht : t' ≤ t) :
  s.KeptFrom c t' o
  := by
  intro m hm
  apply Nat.le_trans _ (h m hm)
  apply Instant.after_le_after ht

/-- The studio is regular, its clock is on record and so is the instant `t`. -/
structure Timely (c : Config) (t : Instant) (s : Studio) : Prop where
  /-- The lifetimes are those of the configuration. -/
  regular : s.Regular c
  /-- The last reading on record is what the clock shows. -/
  fresh : s.host.Fresh
  /-- The clock has shown `t`. -/
  read : t ∈ s.host.log.readings

theorem Timely.course (ht : s.Timely c t) (h : Course P s s') :
  s'.Timely c t
  := ⟨ht.regular.course h, h.fresh ht.fresh, h.extends_log.mem_readings ht.read⟩

theorem Timely.after_le (ht : s.Timely c t) (hs : s.host.log.Steady) :
  t.after c.lifetime ≤ s.now.after s.inventory.mountings.lifetime
  := by
  rw [ht.regular.mountings]
  apply Instant.after_le_after
  apply ht.fresh.le_now hs ht.read

/-- What is kept from some reading of the clock on stays so. -/
theorem KeptFrom.course (hk : s.KeptFrom c t o) (ht : s.Timely c t) (h : Course P s s')
    (hs : s'.host.log.Steady) :
  s'.KeptFrom c t o
  := by
  suffices hall : s'.Timely c t ∧ (s'.host.log.Steady → s'.KeptFrom c t o) from hall.2 hs
  apply h.invariant _ ⟨ht, fun _ => hk⟩
  rintro s a hp hallowed ⟨ht, hk⟩
  have hone : Course P s (a.run s) := .single a hp hallowed
  use ht.course hone
  intro hs m hm
  have hs := hone.extends_log.steady hs
  rcases mounting?_run a hm with hm | hd
  · apply hk hs m hm
  · rw [hd]
    apply ht.after_le hs

/-- An object that one of many steps keeps is kept after all of them. -/
theorem keptFrom_foldl {α : Type} {f : Studio → α → Studio} (hf : ∀ s a, Course P s (f s a))
    {a : α} {as : List α} (ha : a ∈ as)
    (hk : ∀ s : Studio, s.Timely c t → (f s a).host.log.Steady → (f s a).KeptFrom c t o)
    (ht : s.Timely c t) (hs : (as.foldl f s).host.log.Steady) :
  (as.foldl f s).KeptFrom c t o
  := by
  obtain ⟨before, after, rfl⟩ := List.append_of_mem ha
  rw [List.foldl_append, List.foldl_cons] at hs ⊢
  have hbefore := Course.foldl hf before s
  have hafter := Course.foldl hf after (f (before.foldl f s) a)
  have ht := ht.course hbefore
  apply KeptFrom.course _ (ht.course (hf _ a)) hafter hs
  apply hk _ ht (hafter.extends_log.steady hs)

theorem keptFrom_renew (ht : s.Timely c t) (hs : s.host.log.Steady) (o : ObjectId) :
  (s.renew o).KeptFrom c t o
  := by
  intro m hm
  rw [mounting?_renew, if_pos rfl] at hm
  obtain ⟨e, -, rfl⟩ := Option.map_eq_some_iff.1 hm
  apply ht.after_le hs

/-- A walk keeps all objects that it meets. -/
theorem keptFrom_keepAlive {nodes : List (Node × Position)} {n : Node × Position}
    (hn : n ∈ nodes) (ht : s.Timely c t) (hs : s.host.log.Steady) :
  (s.keepAlive nodes).2.KeptFrom c t n.1.object
  := by
  have hhost : ∀ nodes : List (Node × Position), ∀ s : Studio,
      (nodes.foldl (fun s n => s.renew n.1.object) s).host = s.host := by
    intro nodes s
    apply List.foldlRecOn (motive := fun s' : Studio => s'.host = s.host)
    · rfl
    · intro s' h _ _
      apply h
  rw [snd_keepAlive]
  apply keptFrom_foldl (P := Act.Draws) _ hn _ ht
  · rw [hhost]
    apply hs
  · intro s n
    apply Course.single (.touch n.1.object) trivial trivial
  · intro s ht hs
    apply keptFrom_renew ht hs

/-- Painting keeps all objects that are painted. -/
theorem keptFrom_paintAll {canvas : CanvasId} {nodes : List (Node × Position)}
    {n : Node × Position} (hn : n ∈ nodes) (ht : s.Timely c t)
    (hs : (s.paintAll canvas nodes).2.host.log.Steady) :
  (s.paintAll canvas nodes).2.KeptFrom c t n.1.object
  := by
  apply keptFrom_foldl (course_paintNode canvas) hn _ ht hs
  intro s ht hs m hm
  rw [mounting?_paintNode, if_pos rfl] at hm
  cases hm
  apply ht.after_le
  apply (course_paintNode canvas s n).extends_log.steady hs

/-! ### What a sweep spares -/

/-- The renderers of `o` destroyed so far. -/
def destroyedFor (s : Studio) (o : ObjectId) : List (ObjectId × Renderer) :=
  s.host.log.destroyed.filter fun d => d.1 = o

/-- The object `o` has the same mounting and the same renderer in both studios, and none of its
renderers is destroyed in between. -/
structure Spares (o : ObjectId) (s s' : Studio) : Prop where
  /-- The mounting is the same. -/
  mounting : s'.mounting? o = s.mounting? o
  /-- The renderer is the same. -/
  renderer : s'.renderer? o = s.renderer? o
  /-- No renderer is destroyed. -/
  destroyed : s'.destroyedFor o = s.destroyedFor o

theorem Spares.refl (o : ObjectId) (s : Studio) :
  Spares o s s
  := ⟨rfl, rfl, rfl⟩

/-- What is mounted for `o`, and its renderer, has not lapsed at `now`. -/
def AliveAt (now : Instant) (o : ObjectId) (s : Studio) : Prop :=
  (∀ m, s.mounting? o = some m → now < m.deadline)
    ∧ ∀ r, s.renderer? o = some r → now < r.deadline

theorem Spares.aliveAt {now : Instant} (h : Spares o s s') (ha : s.AliveAt now o) :
  s'.AliveAt now o
  := by
  constructor
  · rw [h.mounting]
    apply ha.1
  · rw [h.renderer]
    apply ha.2

theorem destroyed_dropTexture (s : Studio) (o : ObjectId) :
  (s.dropTexture o).2.host.log.destroyed = s.host.log.destroyed
  := by
  rw [dropTexture_eq, Log.destroyed, Host.filterMap_recordAll]
  cases s.inventory.textures.resident o <;> rfl

theorem spares_dismantle {now : Instant} (ha : s.AliveAt now o) (o' : ObjectId) :
  Spares o s (s.dismantle o' (some now)).2
  := by
  have halive : ∀ r, s.renderer? o = some r → r.lapsedBy (some now) = false := by
    intro r hr
    rw [Entry.lapsedBy, Option.all_some]
    apply decide_eq_false
    apply Nat.not_le.2 (ha.2 r hr)
  cases h : s.lapsedRenderer o' (some now) with
  | none =>
    rw [dismantle_of_none h]
    apply Spares.refl
  | some r =>
    have ho : o' ≠ o := by
      rintro rfl
      obtain ⟨e, he, -⟩ := Option.map_eq_some_iff.1 h
      obtain ⟨he, hlapsed⟩ := Option.filter_eq_some_iff.1 he
      rw [halive e he] at hlapsed
      cases hlapsed
    constructor
    · rw [mounting?, mountings_dismantle]
      rfl
    · rw [renderer?_dismantle, if_neg (Ne.symm ho)]
    · rw [dismantle_of_some h, destroyedFor, Log.destroyed, Host.filterMap_recordAll,
        List.filter_append]
      simp [Event.destroyed?, ho, destroyedFor, Log.destroyed]

/-- An act of a sweep spares what is alive. -/
theorem Act.Sweeps.spares {now : Instant} {a : Act} (h : a.Sweeps now) (ha : s.AliveAt now o) :
  Spares o s (a.run s)
  := by
  cases a with
  | keepValues texts icons => exact ⟨rfl, rfl, rfl⟩
  | plan schedule => exact ⟨rfl, rfl, rfl⟩
  | dropTexture o' =>
    constructor
    · rw [Act.run, mounting?, mountings_dropTexture]
      rfl
    · rw [Act.run, renderer?, renderers_dropTexture]
      rfl
    · rw [Act.run, destroyedFor, destroyed_dropTexture]
      rfl
  | unmount o' cause accept =>
    have haccept : accept = Entry.lapsedBy (some now) := h
    refine ⟨?_, rfl, rfl⟩
    have htake : (s.inventory.mountings.takeIf o' cause accept).2.store.find? o
        = s.mounting? o := by
      rw [Cache.find?_takeIf]
      split
      · rename_i ho
        rw [← ho]
        change (s.mounting? o).filter _ = s.mounting? o
        cases hm : s.mounting? o with
        | none => rfl
        | some m =>
          have hnot := Nat.not_le.2 (ha.1 m hm)
          simp [haccept, Entry.lapsedBy, Instant.le_iff, hnot]
      · rfl
    apply htake
  | dismantle o' expiredAt =>
    have hexpired : expiredAt = some now := h
    rw [hexpired]
    apply spares_dismantle ha
  | _ => exact h.elim

/-- A sweep spares what is alive. -/
theorem Course.spares {now : Instant} (h : Course (fun _ => Act.Sweeps now) s s')
    (ha : s.AliveAt now o) :
  Spares o s s'
  := by
  suffices hall : Spares o s s' ∧ s'.AliveAt now o from hall.1
  apply h.invariant (I := fun s' => Spares o s s' ∧ s'.AliveAt now o)
  · rintro s' a hp - ⟨hs, ha⟩
    have hstep := Act.Sweeps.spares hp ha
    constructor
    · constructor
      · rw [hstep.mounting, hs.mounting]
      · rw [hstep.renderer, hs.renderer]
      · rw [hstep.destroyed, hs.destroyed]
    · apply hstep.aliveAt ha
  · exact ⟨Spares.refl o s, ha⟩

end Studio

end FrameCache
