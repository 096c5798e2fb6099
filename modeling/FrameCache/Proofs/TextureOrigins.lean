import FrameCache.Proofs.TextureAccounts
import FrameCache.Proofs.Visits

/-!
# Where textures come from

As long as no two uploads yield the same texture, a studio can trace the textures that it holds:
each was uploaded for its object and has not been deleted.  The texture of an object is newer than
some calls if it was uploaded after them.  Both hold on from one transaction to the next, whether
or not a texture has come to the end of its life.

What a visit draws from is the texture that is held for its node at that moment.
-/

namespace FrameCache

namespace Log

variable {l l' : Log}

/-- No two uploads have yielded the same texture. -/
def UploadsDiffer (l : Log) : Prop := (l.uploaded.map Prod.snd).Nodup

instance (l : Log) : Decidable l.UploadsDiffer :=
  inferInstanceAs (Decidable (l.uploaded.map Prod.snd).Nodup)

theorem Extends.uploadsDiffer (h : Extends l l') (hd : l'.UploadsDiffer) :
  l.UploadsDiffer
  := by
  obtain ⟨new, hnew⟩ := h.events
  rw [UploadsDiffer, uploaded, hnew, List.filterMap_append, List.map_append] at hd
  exact (List.nodup_append.1 hd).2.1

/-- A texture was uploaded for one object only. -/
theorem UploadsDiffer.eq_of_mem (hd : l.UploadsDiffer) {o o' : ObjectId} {t : Texture}
    (h : (o, t) ∈ l.uploaded) (h' : (o', t) ∈ l.uploaded) :
  o = o'
  := congrArg Prod.fst (List.inj_on_of_nodup_map hd h h' rfl)

end Log

/-! ### Textures that are held -/

namespace Holdings

variable {h h' : Holdings} {x : Transaction} {xs : List Transaction} {o : ObjectId} {past : Log}

/-- The textures that are held were uploaded and have not been deleted. -/
structure Traced (h : Holdings) : Prop where
  /-- What is held was uploaded for its object. -/
  uploaded : ∀ o t, h.textures o = some t → (o, t) ∈ h.host.log.uploaded
  /-- What was deleted had been uploaded. -/
  deleted : ∀ p ∈ h.host.log.deleted, p ∈ h.host.log.uploaded
  /-- What is held has not been deleted. -/
  kept : ∀ o t, h.textures o = some t → t ∉ h.host.log.deleted.map Prod.snd

/-- The texture that is held for `o` was uploaded after the calls `past` had been made. -/
def Renewed (h : Holdings) (o : ObjectId) (past : Log) : Prop :=
  ∃ new, h.host.log.events = new ++ past.events
    ∧ ∀ t, h.textures o = some t → .textureCreated o (some t) ∈ new

theorem Traced.after (ht : h.Traced) (hx : x.Allowed h)
    (hd : (x.after h).host.log.UploadsDiffer) :
  (x.after h).Traced
  := by
  have huploaded := Transaction.uploaded_after hx
  have hold : ∀ p ∈ h.host.log.uploaded, p ∈ (x.after h).host.log.uploaded := by
    intro p hp
    rw [huploaded]
    apply List.mem_append_right _ hp
  have htraced : ∀ o t, (x.after h).textures o = some t →
      (o, t) ∈ (x.after h).host.log.uploaded := by
    intro o t ho
    rcases Transaction.held_or_uploaded ho with hheld | hm
    · apply hold _ (ht.uploaded o t hheld)
    · rw [huploaded]
      apply List.mem_append_left _ hm
  use htraced
  · intro p hp
    rw [Transaction.deleted_after hx] at hp
    apply hold
    rcases List.mem_append.1 hp with hm | hp
    · apply ht.uploaded _ _ (Transaction.held_of_mem_deleted hx hm)
    · apply ht.deleted p hp
  · rintro o t ho hp
    rw [Transaction.deleted_after hx] at hp
    obtain ⟨⟨o', t'⟩, hmem, rfl⟩ := List.mem_map.1 hp
    rcases List.mem_append.1 hmem with hm | hm
    · -- What is deleted now was held for the same object, which has nothing afterwards.
      have hheld := ht.uploaded _ _ (Transaction.held_of_mem_deleted hx hm)
      rw [hd.eq_of_mem (htraced o t' ho) (hold _ hheld), Transaction.none_of_mem_deleted hm] at ho
      cases ho
    · rcases Transaction.held_or_uploaded ho with hheld | hnew
      · exact ht.kept o t' hheld (List.mem_map_of_mem hm)
      · rw [Log.UploadsDiffer, huploaded, List.map_append] at hd
        apply (List.nodup_append.1 hd).2.2 t' (List.mem_map_of_mem hnew) t' _ rfl
        apply List.mem_map_of_mem (ht.deleted _ hm)

theorem Renewed.after (hr : h.Renewed o past) :
  (x.after h).Renewed o past
  := by
  obtain ⟨new, hnew, hheld⟩ := hr
  use x.events.reverse ++ new
  constructor
  · rw [Transaction.host_after, Host.events_recordAll, hnew, List.append_assoc]
  · intro t ht
    rcases Transaction.held_or_uploaded ht with ht | hm
    · apply List.mem_append_right _ (hheld t ht)
    · apply List.mem_append_left
      rw [List.mem_reverse, Transaction.events_of_mem_uploaded hm]
      apply List.mem_singleton.2 rfl

theorem Course.extends_log (hc : Course h xs h') :
  Log.Extends h.host.log h'.host.log
  := by
  rw [hc.host_eq]
  apply Host.extends_recordAll

theorem Course.traced (hc : Course h xs h') (ht : h.Traced) (hd : h'.host.log.UploadsDiffer) :
  h'.Traced
  := by
  induction hc with
  | nil => apply ht
  | cons x hx rest ih => apply ih (ht.after hx (rest.extends_log.uploadsDiffer hd)) hd

end Holdings

/-! ### Studios -/

namespace Studio

variable {s s' : Studio} {P : Studio → Act → Prop} {o : ObjectId} {past : Log}

theorem Course.traced (hc : Course P s s') (ht : s.holdings.Traced)
    (hd : s'.host.log.UploadsDiffer) :
  s'.holdings.Traced
  := by
  obtain ⟨xs, hxs⟩ := hc.exists_transactions
  apply hxs.traced ht hd

theorem Course.renewed (hc : Course P s s') (hr : s.holdings.Renewed o past) :
  s'.holdings.Renewed o past
  := by
  obtain ⟨xs, hxs⟩ := hc.exists_transactions
  apply hxs.invariant (I := fun h => h.Renewed o past) (fun _ _ _ hr => hr.after) hr

theorem Idles.traced (hi : Idles s s') (ht : s.holdings.Traced) :
  s'.holdings.Traced
  := by
  have huploaded : s'.host.log.uploaded = s.host.log.uploaded :=
    hi.filterMap_events fun _ he => he.accounts.2.2.2.1
  have hdeleted : s'.host.log.deleted = s.host.log.deleted :=
    hi.filterMap_events fun _ he => he.accounts.2.2.2.2
  have htextures : s'.holdings.textures = s.holdings.textures :=
    congrArg Cache.resident hi.textures
  constructor
  · rw [htextures]
    change ∀ o t, _ → (o, t) ∈ s'.host.log.uploaded
    rw [huploaded]
    apply ht.uploaded
  · change ∀ p ∈ s'.host.log.deleted, p ∈ s'.host.log.uploaded
    rw [huploaded, hdeleted]
    apply ht.deleted
  · rw [htextures]
    change ∀ o t, _ → t ∉ s'.host.log.deleted.map Prod.snd
    rw [hdeleted]
    apply ht.kept

theorem Idles.renewed (hi : Idles s s') (hr : s.holdings.Renewed o past) :
  s'.holdings.Renewed o past
  := by
  have htextures : s'.holdings.textures = s.holdings.textures :=
    congrArg Cache.resident hi.textures
  obtain ⟨new, hnew, hheld⟩ := hr
  obtain ⟨later, hlater⟩ := hi.extends_log.events
  use later ++ new
  constructor
  · change s'.host.log.events = _
    rw [hlater, show s.host.log.events = new ++ past.events from hnew, List.append_assoc]
  · intro t ht
    rw [htextures] at ht
    apply List.mem_append_right _ (hheld t ht)

theorem traced_ofConfig (layouts : Layouts) (c : Config) (policy : Policy) :
  (ofConfig layouts c policy).holdings.Traced
  := by
  have hnone : ∀ o, (ofConfig layouts c policy).holdings.textures o = none := fun _ =>
    Option.map_eq_none_iff.2 (Store.find?_empty _ _)
  constructor
  · intro o t ht
    rw [hnone] at ht
    cases ht
  · intro p hp
    cases hp
  · intro o t ht
    rw [hnone] at ht
    cases ht

/-- A texture that was just deleted is replaced by a new one only. -/
theorem renewed_of_none (hp : Log.Extends past s.host.log)
    (ho : s.inventory.textures.resident o = none) :
  s.holdings.Renewed o past
  := by
  obtain ⟨new, hnew⟩ := hp.events
  use new, hnew
  intro t ht
  change s.inventory.textures.resident o = some t at ht
  rw [ho] at ht
  cases ht

theorem resident_dropTexture (s : Studio) (o o' : ObjectId) :
  (s.dropTexture o).2.inventory.textures.resident o'
    = if o' = o then none else s.inventory.textures.resident o'
  := by
  change ((s.dropTexture o).2.texture? o').map Entry.value = _
  rw [texture?_dropTexture]
  split
  · rfl
  · rfl

theorem resident_foldl_dropTexture {stale : List ObjectId} (ho : o ∈ stale) (s : Studio) :
  (stale.foldl (fun s o => (s.dropTexture o).2) s).inventory.textures.resident o = none
  := by
  have hkept : ∀ (stale : List ObjectId) (s : Studio), s.inventory.textures.resident o = none →
      (stale.foldl (fun s o => (s.dropTexture o).2) s).inventory.textures.resident o = none := by
    intro stale s hs
    apply List.foldlRecOn (motive := fun s : Studio => s.inventory.textures.resident o = none)
      _ _ hs
    intro s' hs' o' _
    rw [resident_dropTexture, hs', ite_self]
  induction stale generalizing s with
  | nil => cases ho
  | cons o' stale ih =>
    rw [List.foldl_cons]
    by_cases h : o = o'
    · apply hkept
      rw [resident_dropTexture, if_pos h]
    · apply ih ((List.mem_cons.1 ho).resolve_left h)

/-- The texture that is got for an object is held for it. -/
theorem resident_of_texture {t : Texture} (h : (s.texture o).1 = some t) :
  (s.texture o).2.inventory.textures.resident o = some t
  := by
  cases hp : s.inventory.textures.peek o s.now with
  | some t' =>
    rw [texture_of_live hp] at h ⊢
    cases h
    obtain ⟨e, he, -, hv⟩ := Cache.peek_eq_some_iff.1 hp
    change (s.inventory.textures.renew o s.now).resident o = some t
    rw [Cache.resident_renew, Cache.resident_of_find? he, hv]
  | none =>
    rw [texture_of_not_live hp] at h ⊢
    change s.host.policy.upload s.host.log o = some t at h
    rw [h]
    change (s.inventory.textures.create o s.now t).resident o = some t
    rw [Cache.resident_create, Function.update_self]

end Studio

/-! ### Visits -/

namespace Visit

variable {v : Visit} {past : Log}

/-- The visit draws from a texture that was uploaded for its object and has not been deleted, or
from none. -/
structure Sound (v : Visit) : Prop where
  /-- The texture was uploaded for the object. -/
  uploaded : ∀ t, v.texture = some t → (v.node.object, t) ∈ v.log.uploaded
  /-- The texture has not been deleted. -/
  kept : ∀ t, v.texture = some t → t ∉ v.log.deleted.map Prod.snd
  /-- Unless the node is to be drawn from a texture there is none. -/
  untextured : v.node.textured = false → v.texture = none
  /-- If the texture is missing, then its upload is the last call of the visit, and it failed. -/
  failed : v.node.textured = true → v.texture = none →
    ∃ new, v.log.events
      = .textureCreated v.node.object none :: (new ++ v.studio.host.log.events)

/-- What is drawn from is held. -/
theorem resident_of_texture {t : Texture} (h : v.texture = some t) :
  v.provided.2.holdings.textures v.node.object = some t
  := by
  rw [texture, provided, Studio.provide, Studio.provideTexture] at h
  rw [provided, Studio.provide, Studio.provideTexture]
  split at h
  · rename_i ht
    rw [if_pos ht]
    apply Studio.resident_of_texture h
  · cases h

theorem texture_of_untextured (h : v.node.textured = false) :
  v.texture = none
  := by
  rw [texture, provided, Studio.provide, Studio.provideTexture, h]
  rfl

/-- A texture is missing only if its upload failed right before. -/
theorem log_of_failed (ht : v.node.textured = true) (h : v.texture = none) :
  ∃ new, v.log.events
    = .textureCreated v.node.object none :: (new ++ v.studio.host.log.events)
  := by
  -- The studio once the node has its renderer.
  let s := (v.studio.update fun i now =>
    i.mount v.node.object ⟨v.canvas, v.node.kind⟩ now).provideRenderer v.node
  have hprovided : v.provided = s.texture v.node.object := by
    rw [provided, Studio.provide, Studio.provideTexture, if_pos ht]
  have hcourse : Studio.Course Studio.Act.Draws v.studio s :=
    .cons (.mount v.node.object ⟨v.canvas, v.node.kind⟩) trivial trivial
      (Studio.course_provideRenderer _ v.node)
  obtain ⟨new, hnew⟩ := hcourse.extends_log.events
  use new
  rw [texture, hprovided] at h
  rw [log, hprovided, ← hnew]
  cases hp : s.inventory.textures.peek v.node.object s.now with
  | some t =>
    rw [Studio.texture_of_live hp] at h
    cases h
  | none =>
    rw [Studio.texture_of_not_live hp] at h ⊢
    change s.host.policy.upload s.host.log v.node.object = none at h
    rw [h]
    rfl

theorem sound_of_traced (ht : v.studio.holdings.Traced) (hd : v.log.UploadsDiffer) :
  v.Sound
  := by
  have htraced := v.course_provided.traced ht hd
  constructor
  · intro t h
    apply htraced.uploaded _ t (resident_of_texture h)
  · intro t h
    apply htraced.kept _ t (resident_of_texture h)
  · apply texture_of_untextured
  · apply log_of_failed

/-- What is drawn from was uploaded after the calls that the texture held is newer than. -/
theorem created_of_renewed (h : v.studio.holdings.Renewed v.node.object past) {t : Texture}
    (ht : v.texture = some t) :
  ∃ new, v.log.events = new ++ past.events ∧ .textureCreated v.node.object (some t) ∈ new
  := by
  obtain ⟨new, hnew, hheld⟩ := v.course_provided.renewed h
  use new, hnew
  apply hheld t (resident_of_texture ht)

end Visit

end FrameCache
