import FrameCache.Proofs.Readings
import FrameCache.Proofs.Teardown
import FrameCache.Proofs.Upkeep

/-!
# The account of textures

A painter may give the name of a texture again once the texture was deleted, but not while it is
out.  Then, as long as the clock has not come to the last instant, a studio keeps account of all
textures: those uploaded are those resident and those deleted, and no two objects share one.

`Studio.Conserves` says how a single step keeps this account: a texture is uploaded only for an
object that has none, and it is deleted exactly if the step removes it.  Whatever requests a
studio serves, it takes such steps only.
-/

namespace FrameCache

/-! ### Textures that are out -/

/-- The texture was uploaded and has not been deleted since.  The latest call is listed first. -/
def Texture.IsOut (h : Texture) (es : List Event) : Prop :=
  ((es.filterMap Event.deleted?).map Prod.snd).count h
    < ((es.filterMap Event.uploaded?).map Prod.snd).count h

instance (h : Texture) (es : List Event) : Decidable (h.IsOut es) := Nat.decLt _ _

/-- No upload yields a texture that is out. -/
def UploadsFresh : List Event → Prop
  | [] => True
  | e :: es => (∀ p ∈ e.uploaded?, ¬ p.2.IsOut es) ∧ UploadsFresh es

instance UploadsFresh.decidable : (es : List Event) → Decidable (UploadsFresh es)
  | [] => .isTrue trivial
  | e :: es =>
    have := decidable es
    inferInstanceAs (Decidable ((∀ p ∈ e.uploaded?, ¬ p.2.IsOut es) ∧ UploadsFresh es))

theorem UploadsFresh.of_append {es es' : List Event} (h : UploadsFresh (es ++ es')) :
  UploadsFresh es'
  := by
  induction es with
  | nil => apply h
  | cons e es ih => apply ih h.2

theorem UploadsFresh.of_extends {l l' : Log} (h : UploadsFresh l'.events)
    (hl : Log.Extends l l') :
  UploadsFresh l.events
  := by
  obtain ⟨calls, hcalls⟩ := hl
  rw [Log.events, hcalls, List.map_append] at h
  apply h.of_append

/-! ### What a transaction does to textures -/

namespace Transaction

variable {h : Holdings} {x : Transaction} {o : ObjectId} {t : Texture}

/-- A texture is uploaded only for an object that has none, also if the upload fails. -/
theorem none_of_upload (hx : x.Allowed h) (hr : ¬ x.Replaces) {u : Option Texture}
    (hm : .textureCreated o u ∈ x.events) :
  h.textures o = none
  := by
  cases x with
  | upload o' u' =>
    cases List.mem_singleton.1 hm
    apply hx
  | replace o' u' => exact absurd trivial hr
  | call e =>
    cases List.mem_singleton.1 hm
    exact hx.elim
  | dismantle o' r u' => cases u' <;> simp [events] at hm
  | _ => simp [events] at hm

/-- A transaction that uploads a texture is this one call. -/
theorem events_of_mem_uploaded (hm : (o, t) ∈ x.uploaded) :
  x.events = [.textureCreated o (some t)]
  := by
  cases x with
  | upload o' u =>
    obtain ⟨t', ht, he⟩ := List.mem_map.1 hm
    cases he
    rw [Option.mem_toList.1 ht]
    rfl
  | replace o' u =>
    obtain ⟨t', ht, he⟩ := List.mem_map.1 hm
    cases he
    rw [Option.mem_toList.1 ht]
    rfl
  | _ => cases hm

/-- Only a texture that is held is deleted. -/
theorem held_of_mem_deleted (hx : x.Allowed h) (hm : (o, t) ∈ x.deleted) :
  h.textures o = some t
  := by
  cases x with
  | dismantle o' r u =>
    obtain ⟨t', ht, he⟩ := List.mem_map.1 hm
    cases he
    rw [hx.2, Option.mem_toList.1 ht]
  | drop o' t' =>
    cases List.mem_singleton.1 hm
    apply hx
  | _ => cases hm

/-- Nothing is uploaded for an object whose texture is held. -/
theorem not_mem_uploaded (hx : x.Allowed h) (hr : ¬ x.Replaces) (ht : h.textures o = some t)
    (t' : Texture) :
  (o, t') ∉ x.uploaded
  := by
  intro hm
  have hupload : .textureCreated o (some t') ∈ x.events := by
    rw [events_of_mem_uploaded hm, List.mem_singleton]
  rw [none_of_upload hx hr hupload] at ht
  cases ht

/-- A texture that is held stays, or the object has none afterwards. -/
theorem textures_after_of_held (hx : x.Allowed h) (hr : ¬ x.Replaces)
    (ht : h.textures o = some t) :
  (x.after h).textures o = some t ∨ (x.after h).textures o = none
  := by
  cases ha : (x.after h).textures o with
  | none => exact .inr rfl
  | some t' =>
    -- What is held afterwards and was not uploaded was held before.
    have hcount := count_textures hx hr o t'
    rw [List.count_eq_zero_of_not_mem (not_mem_uploaded hx hr ht t'), ht, ha, Option.toList_some,
      Option.toList_some, List.count_singleton_self] at hcount
    have hmem : t' ∈ [t] := List.count_pos_iff.1 (by omega)
    rw [List.mem_singleton.1 hmem]
    exact .inl rfl

/-- A texture is deleted exactly if it is held and does not stay. -/
theorem count_deleted (hx : x.Allowed h) (hr : ¬ x.Replaces) (o : ObjectId) (t : Texture) :
  x.deleted.count (o, t)
    = if h.textures o = some t ∧ (x.after h).textures o = none then 1 else 0
  := by
  by_cases ht : h.textures o = some t
  · have hcount := count_textures hx hr o t
    rw [List.count_eq_zero_of_not_mem (not_mem_uploaded hx hr ht t), ht, Option.toList_some,
      List.count_singleton_self] at hcount
    rcases textures_after_of_held hx hr ht with ha | ha
    · rw [ha, Option.toList_some, List.count_singleton_self] at hcount
      rw [ha, if_neg (by simp)]
      omega
    · rw [ha, Option.toList_none, List.count_nil] at hcount
      rw [ha, if_pos ⟨ht, rfl⟩]
      omega
  · rw [if_neg (fun hand => ht hand.1)]
    apply List.count_eq_zero_of_not_mem
    intro hm
    apply ht (held_of_mem_deleted hx hm)

/-- A texture that is held was held before or is uploaded. -/
theorem held_or_uploaded (ht : (x.after h).textures o = some t) :
  h.textures o = some t ∨ (o, t) ∈ x.uploaded
  := by
  have hupdate : ∀ (o' : ObjectId) (u : Option Texture),
      Function.update h.textures o' u o = some t →
      h.textures o = some t ∨ (o, t) ∈ u.toList.map (Prod.mk o') := by
    intro o' u hu
    rw [Function.update_apply] at hu
    split at hu
    · rename_i ho
      rw [hu, ho]
      exact .inr (List.mem_singleton.2 rfl)
    · exact .inl hu
  cases x with
  | upload o' u =>
    cases u with
    | none => exact .inl ht
    | some t' => exact hupdate o' (some t') ht
  | replace o' u =>
    cases u with
    | none => exact .inl ht
    | some t' => exact hupdate o' (some t') ht
  | dismantle o' r u => exact .inl ((hupdate o' none ht).resolve_right List.not_mem_nil)
  | drop o' t' => exact .inl ((hupdate o' none ht).resolve_right List.not_mem_nil)
  | _ => exact .inl ht

/-- An object whose texture is deleted has none afterwards. -/
theorem none_of_mem_deleted (hm : (o, t) ∈ x.deleted) :
  (x.after h).textures o = none
  := by
  cases x with
  | dismantle o' r u =>
    obtain ⟨t', -, he⟩ := List.mem_map.1 hm
    cases he
    apply Function.update_self
  | drop o' t' =>
    cases List.mem_singleton.1 hm
    apply Function.update_self
  | _ => cases hm

end Transaction

namespace Studio

variable {s s' : Studio} {c : Config}

/-! ### The account of a studio -/

/-- The textures uploaded are accounted for. -/
structure Conserved (s : Studio) : Prop where
  /-- The textures uploaded are those resident and those deleted. -/
  uploaded : s.host.log.uploaded.Perm (s.inventory.textures.toList ++ s.host.log.deleted)
  /-- No two objects have the same texture. -/
  distinct : ∀ o o' t, s.inventory.textures.resident o = some t →
    s.inventory.textures.resident o' = some t → o = o'

/-- A texture was uploaded as often as it is resident or was deleted. -/
theorem Conserved.count_eq (h : s.Conserved) (t : Texture) :
  (s.host.log.uploaded.map Prod.snd).count t
    = (s.inventory.textures.toList.map Prod.snd).count t
      + (s.host.log.deleted.map Prod.snd).count t
  := by
  rw [(h.uploaded.map Prod.snd).count_eq, List.map_append, List.count_append]

/-- A texture that is resident is out. -/
theorem Conserved.isOut (h : s.Conserved) {o : ObjectId} {t : Texture}
    (ht : s.inventory.textures.resident o = some t) :
  t.IsOut s.host.log.events
  := by
  have hmem : t ∈ s.inventory.textures.toList.map Prod.snd :=
    List.mem_map.2 ⟨(o, t), Cache.mem_toList.2 ht, rfl⟩
  have hpos := List.count_pos_iff.2 hmem
  have hcount := h.count_eq t
  change (s.host.log.deleted.map Prod.snd).count t < (s.host.log.uploaded.map Prod.snd).count t
  omega

/-- No texture is resident twice. -/
theorem Conserved.nodup (h : s.Conserved) :
  (s.inventory.textures.toList.map Prod.snd).Nodup
  := by
  have hnodup := s.inventory.textures.nodup_keys.of_map
  apply List.Nodup.map_on _ hnodup
  rintro ⟨o, t⟩ hm ⟨o', t'⟩ hm' rfl
  rw [h.distinct o o' t (Cache.mem_toList.1 hm) (Cache.mem_toList.1 hm')]

theorem conserved_ofConfig (layouts : Layouts) (c : Config) (policy : Policy) :
  (ofConfig layouts c policy).Conserved
  := by
  use texturesBalanced_iff.1 (texturesBalanced_ofConfig layouts c policy)
  intro o o' t ht
  rw [show (ofConfig layouts c policy).inventory.textures.resident o = none from
    Option.map_eq_none_iff.2 (Store.find?_empty _ _)] at ht
  cases ht

/-! ### Steps -/

/-- The calls `es` of the step from `s` to `s'` conserve the textures. -/
structure Conserves (s s' : Studio) (es : List Event) : Prop where
  /-- These are the calls of the step. -/
  host : s'.host = s.host.recordAll es
  /-- A texture is uploaded only for an object that has none, also if the upload fails. -/
  uploads : ∀ o t, .textureCreated o t ∈ es → s.inventory.textures.resident o = none
  /-- A texture is deleted exactly if the step removes it, and then once. -/
  deletions : ∀ o t, (es.filterMap Event.deleted?).count (o, t)
    = if s.inventory.textures.resident o = some t ∧ s'.inventory.textures.resident o = none
      then 1 else 0
  /-- A texture stays or is removed, and no other takes its place. -/
  stays : ∀ o t, s.inventory.textures.resident o = some t →
    s'.inventory.textures.resident o = some t ∨ s'.inventory.textures.resident o = none
  /-- The textures were accounted for before the step. -/
  before : s.Conserved
  /-- The textures are accounted for after the step. -/
  after : s'.Conserved

/-- A step without any change of what is held conserves the textures. -/
theorem Conserves.of_eq (hs : s.Conserved) (h : s'.holdings = s.holdings) :
  s.Conserves s' []
  := by
  have hhost : s'.host = s.host := congrArg Holdings.host h
  have htextures : s'.inventory.textures.resident = s.inventory.textures.resident :=
    congrArg Holdings.textures h
  constructor
  · apply hhost
  · intro o t hm
    cases hm
  · intro o t
    rw [htextures, if_neg]
    · rfl
    · rintro ⟨hsome, hnone⟩
      rw [hnone] at hsome
      cases hsome
  · intro o t ht
    rw [htextures]
    exact .inl ht
  · apply hs
  · constructor
    · rw [← texturesBalanced_iff, h, texturesBalanced_iff]
      apply hs.uploaded
    · rw [htextures]
      apply hs.distinct

/-- A transaction conserves the textures, if it gives none that is out. -/
theorem Conserves.one (hs : s.Conserved) {x : Transaction} (hx : x.Allowed s.holdings)
    (hr : ¬ x.Replaces) (h : s'.holdings = x.after s.holdings)
    (hfresh : UploadsFresh s'.host.log.events) :
  s.Conserves s' x.events
  := by
  have hhost : s'.host = s.host.recordAll x.events :=
    (congrArg Holdings.host h).trans (Transaction.host_after _ x)
  have htextures : s'.inventory.textures.resident = (x.after s.holdings).textures :=
    congrArg Holdings.textures h
  -- No texture that is uploaded is resident already.
  have hnew : ∀ o o' t, (o, t) ∈ x.uploaded → s.inventory.textures.resident o' ≠ some t := by
    intro o o' t hm ho'
    rw [hhost, Host.events_recordAll, Transaction.events_of_mem_uploaded hm] at hfresh
    apply hfresh.1 (o, t) rfl (hs.isOut ho')
  constructor
  · apply hhost
  · intro o t hm
    apply Transaction.none_of_upload hx hr hm
  · intro o t
    rw [(Transaction.accounts_events hx).2.2.2.2, Transaction.count_deleted hx hr, htextures]
    rfl
  · intro o t ht
    rw [htextures]
    apply Transaction.textures_after_of_held hx hr ht
  · apply hs
  · constructor
    · rw [← texturesBalanced_iff, h]
      apply Holdings.TexturesBalanced.after hx hr (texturesBalanced_iff.2 hs.uploaded)
    · rw [htextures]
      intro o o' t ho ho'
      rcases Transaction.held_or_uploaded ho with hheld | hm
      · rcases Transaction.held_or_uploaded ho' with hheld' | hm'
        · apply hs.distinct o o' t hheld hheld'
        · apply absurd hheld (hnew o' o t hm')
      · rcases Transaction.held_or_uploaded ho' with hheld' | hm'
        · apply absurd hheld' (hnew o o' t hm)
        · have hevents := Transaction.events_of_mem_uploaded hm
          rw [Transaction.events_of_mem_uploaded hm'] at hevents
          cases hevents
          rfl

/-- An act conserves the textures, if the clock has not come to the last instant. -/
theorem Act.conserves {a : Act} (ha : a.Allowed s) (hr : s.Regular c)
    (hnow : s.now.nanos < horizon) (hs : s.Conserved)
    (hfresh : UploadsFresh (a.run s).host.log.events) :
  ∃ es, s.Conserves (a.run s) es
  := by
  cases a.transacts ha with
  | of_eq h => exact ⟨[], .of_eq hs h⟩
  | one x hx h hkeeps =>
    exact ⟨x.events, .one hs hx (hkeeps (hr.keepsTextures hnow)) h hfresh⟩

/-- Acts conserve the textures one by one. -/
theorem Course.conserves {P : Studio → Act → Prop} (h : Course P s s') (hr : s.Regular c)
    (hnow : s.now.nanos < horizon) (hs : s.Conserved) (hearly : s'.host.log.Early)
    (hfresh : UploadsFresh s'.host.log.events) :
  Course (fun s a => ∃ es, s.Conserves (a.run s) es) s s' ∧ s'.Conserved
  := by
  induction h with
  | nil s => exact ⟨.nil s, hs⟩
  | @cons s _ a _ ha rest ih =>
    have hext := rest.extends_log
    obtain ⟨es, hes⟩ := Act.conserves ha hr hnow hs (hfresh.of_extends hext)
    have hnow' : (a.run s).host.now.nanos < horizon := by
      have hearly' := hext.early hearly
      rw [hes.host] at hearly' ⊢
      apply Host.now_recordAll_lt hnow hearly'
    obtain ⟨hrest, hlast⟩ := ih (hr.run a) hnow' hes.after hearly hfresh
    exact ⟨.cons a ⟨es, hes⟩ ha hrest, hlast⟩

/-! ### Runs -/

theorem Regular.atTime (h : s.Regular c) (t : Instant) :
  (s.atTime t).Regular c
  := ⟨h.config, h.mountings, h.renderers, h.textures, h.lasting⟩

theorem Conserved.atTime (h : s.Conserved) (t : Instant) :
  (s.atTime t).Conserved
  := ⟨h.uploaded, h.distinct⟩

theorem extends_serveAll (s : Studio) (rs : List (Instant × Request)) :
  Log.Extends s.host.log (s.serveAll rs).host.log
  := by
  apply List.foldlRecOn (motive := fun s' : Studio => Log.Extends s.host.log s'.host.log) rs _
    (.refl _)
  intro s' h r _
  apply h.trans
  apply (course_serve (s'.atTime r.1) r.2).extends_log

/-- A run of requests that the clock does not outlive conserves the textures. -/
theorem conserved_serveAll (hr : s.Regular c) (hs : s.Conserved) (rs : List (Instant × Request))
    (hclock : ∀ x ∈ rs, x.1.nanos < horizon) (hearly : (s.serveAll rs).host.log.Early)
    (hfresh : UploadsFresh (s.serveAll rs).host.log.events) :
  (s.serveAll rs).Regular c ∧ (s.serveAll rs).Conserved
  := by
  induction rs generalizing s with
  | nil => exact ⟨hr, hs⟩
  | cons x rs ih =>
    have hcourse := course_serve (s.atTime x.1) x.2
    have hext := ((s.atTime x.1).serve x.2).extends_serveAll rs
    apply ih ((hr.atTime x.1).course hcourse) _ _ hearly hfresh
    · apply (hcourse.conserves (hr.atTime x.1) (hclock x List.mem_cons_self) (hs.atTime x.1)
        (hext.early hearly) (hfresh.of_extends hext)).2
    · intro y hy
      apply hclock y (List.mem_cons_of_mem _ hy)

/-! ### Uploads -/

/-- An upload that fails leaves the entries of all caches as they were. -/
theorem texture_of_fails {o : ObjectId} (h : (s.texture o).1 = none) :
  (s.texture o).2.inventory = { s.inventory with textures := s.inventory.textures.countMiss }
  := by
  cases hp : s.inventory.textures.peek o s.now with
  | some t =>
    rw [texture_of_live hp] at h
    cases h
  | none =>
    rw [texture_of_not_live hp] at h ⊢
    change s.host.policy.upload s.host.log o = none at h
    rw [h]
    rfl

/-- Textures are conserved.  Whatever requests a studio serves before the clock comes to the
last instant, if the painter gives no texture that is out then every step conserves the
textures.  At every point those uploaded are those resident and those deleted, and no texture is
deleted more often than it was uploaded.  An upload that fails changes no entry. -/
theorem serve_conserves (layouts : Layouts) (c : Config) (policy : Policy)
    (rs : List (Instant × Request)) (t : Instant) (r : Request)
    (hclock : ∀ x ∈ rs, x.1.nanos < horizon) (ht : t.nanos < horizon)
    (hearly : ((((ofConfig layouts c policy).serveAll rs).atTime t).serve r).host.log.Early)
    (hfresh : UploadsFresh
      ((((ofConfig layouts c policy).serveAll rs).atTime t).serve r).host.log.events) :
  let before := ((ofConfig layouts c policy).serveAll rs).atTime t
  let after := before.serve r
  Course (fun s a => ∃ es, s.Conserves (a.run s) es) before after
    ∧ after.host.log.uploaded.Perm (after.inventory.textures.toList ++ after.host.log.deleted)
    ∧ (∀ h, (after.host.log.deleted.map Prod.snd).count h
        ≤ (after.host.log.uploaded.map Prod.snd).count h
      ∧ (after.host.log.uploaded.map Prod.snd).count h
        ≤ (after.host.log.deleted.map Prod.snd).count h + 1)
    ∧ ∀ (s : Studio) (o : ObjectId), (s.texture o).1 = none →
      (s.texture o).2.inventory = { s.inventory with textures := s.inventory.textures.countMiss }
  := by
  intro before after
  have hcourse := course_serve before r
  have hext : Log.Extends ((ofConfig layouts c policy).serveAll rs).host.log after.host.log :=
    hcourse.extends_log
  obtain ⟨hregular, hconserved⟩ := conserved_serveAll (regular_ofConfig layouts c policy)
    (conserved_ofConfig layouts c policy) rs hclock (hext.early hearly) (hfresh.of_extends hext)
  obtain ⟨hsteps, hlast⟩ := hcourse.conserves (hregular.atTime t) ht (hconserved.atTime t) hearly
    hfresh
  change after.Conserved at hlast
  use hsteps, hlast.uploaded
  constructor
  · intro h
    have hcount := hlast.count_eq h
    have hone := List.nodup_iff_count_le_one.1 hlast.nodup h
    omega
  · intro s o
    apply texture_of_fails

/-- A painter with a single texture, which it gives again once it was deleted. -/
def oneTexture : Policy where
  pause _ _ := .zero
  upload l _ := if (⟨7⟩ : Texture).IsOut l.events then none else some ⟨7⟩

/-- The only texture goes to one object, cannot go to another, and is deleted. -/
def handBack : List (Instant × Request) :=
  [(.ofNanos 1, .texture ⟨10⟩), (.ofNanos 3, .texture ⟨11⟩), (.ofNanos 2, .dropTexture ⟨10⟩)]

theorem serve_conserves_handBack :
  let before := ((ofConfig .spread .standard oneTexture).serveAll handBack).atTime (.ofNanos 5)
  let after := before.serve (.paint ⟨1⟩ [(.ofTexture ⟨11⟩, .origin), (.ofTexture ⟨10⟩, .origin)])
  after.host.log.uploaded = [(⟨11⟩, ⟨7⟩), (⟨10⟩, ⟨7⟩)]
    ∧ after.host.log.deleted = [(⟨10⟩, ⟨7⟩)]
    ∧ Course (fun s a => ∃ es, s.Conserves (a.run s) es) before after
    ∧ after.host.log.uploaded.Perm (after.inventory.textures.toList ++ after.host.log.deleted)
  := by
  intro before after
  obtain ⟨hsteps, huploaded, -, -⟩ := serve_conserves .spread .standard oneTexture handBack
    (.ofNanos 5) (.paint ⟨1⟩ [(.ofTexture ⟨11⟩, .origin), (.ofTexture ⟨10⟩, .origin)])
    (by decide +kernel) (by decide +kernel) (by decide +kernel) (by decide +kernel)
  constructor
  · decide +kernel
  constructor
  · decide +kernel
  · dsimp only [before, after]
    exact ⟨hsteps, huploaded⟩

end Studio

end FrameCache
