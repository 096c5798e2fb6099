import FrameCache.Proofs.Acts

/-!
# The transactions of a studio

Every act of a studio, and so every course of acts, is a course of transactions on its
holdings.  What a studio does to its host is therefore to record the calls of transactions.
-/

namespace FrameCache

namespace Studio

/-- What a studio holds. -/
def holdings (s : Studio) : Holdings where
  renderers := s.inventory.renderers.resident
  textures := s.inventory.textures.resident
  themes := s.inventory.themes.resident
  host := s.host

/-- No texture has come to the end of its life. -/
def KeepsTextures (s : Studio) : Prop := ∀ o e, s.texture? o = some e → s.now < e.deadline

/-- The studio `s'` is reached from `s` by at most one transaction, which replaces no texture
that is alive. -/
inductive Transacts (s s' : Studio) : Prop where
  | of_eq (h : s'.holdings = s.holdings) : Transacts s s'
  | one (x : Transaction) (hx : x.Allowed s.holdings) (h : s'.holdings = x.after s.holdings)
      (hr : s.KeepsTextures → ¬ x.Replaces) : Transacts s s'

variable {s s' : Studio}

theorem Transacts.exists_course (h : Transacts s s') :
  ∃ xs, Holdings.Course s.holdings xs s'.holdings ∧ (s.KeepsTextures → ∀ x ∈ xs, ¬ x.Replaces)
  := by
  cases h with
  | of_eq h =>
    use []
    rw [h]
    constructor
    · apply Holdings.Course.nil
    · simp
  | one x hx h hr =>
    use [x]
    rw [h]
    constructor
    · apply Holdings.Course.single x hx
    · simpa using hr

theorem transacts_dismantle (s : Studio) (o : ObjectId) (expiredAt : Option Instant) :
  Transacts s (s.dismantle o expiredAt).2
  := by
  cases h : s.lapsedRenderer o expiredAt with
  | none =>
    rw [dismantle_of_none h]
    exact .of_eq rfl
  | some r =>
    have ht : (s.takeRenderer o expiredAt).2.resident
        = Function.update s.inventory.renderers.resident o none := by
      apply Cache.resident_takeIf_of_some
      rw [← h, ← fst_takeRenderer]
      rfl
    have hr : s.inventory.renderers.resident o = some r := by
      obtain ⟨e, he, rfl⟩ := Option.map_eq_some_iff.1 h
      apply Cache.resident_of_find? (Option.filter_eq_some_iff.1 he).1
    rw [dismantle_of_some h]
    apply Transacts.one (.dismantle o r (s.inventory.textures.resident o)) ⟨hr, rfl⟩
    · simp only [holdings, Transaction.after, Transaction.events, ht, Cache.resident_remove]
    · intro _ hx
      cases hx

theorem transacts_dropTexture (s : Studio) (o : ObjectId) :
  Transacts s (s.dropTexture o).2
  := by
  rw [dropTexture_eq]
  cases h : s.inventory.textures.resident o with
  | none =>
    have hu : Function.update s.inventory.textures.resident o none
        = s.inventory.textures.resident := by
      rw [← h, Function.update_eq_self]
    apply Transacts.of_eq
    simp only [holdings, Cache.resident_remove, hu]
    rfl
  | some t =>
    apply Transacts.one (.drop o t) h
    · simp only [holdings, Cache.resident_remove]
      rfl
    · intro _ hx
      cases hx

theorem holdings_keepUpload (s : Studio) (o : ObjectId) (t : Option Texture) :
  (s.keepUpload o t).holdings = Transaction.after s.holdings (.upload o t)
  := by
  cases t with
  | none => rfl
  | some t =>
    simp only [keepUpload, holdings, Cache.resident_create]
    rfl

theorem transacts_texture (s : Studio) (o : ObjectId) :
  Transacts s (s.texture o).2
  := by
  cases h : s.inventory.textures.peek o s.now with
  | some t =>
    rw [texture_of_live h]
    apply Transacts.of_eq
    simp only [holdings]
    change { s.holdings with textures := (s.inventory.textures.renew o s.now).resident } = _
    rw [Cache.resident_renew]
    rfl
  | none =>
    rw [texture_of_not_live h]
    cases ht : s.texture? o with
    | none =>
      have hn : s.inventory.textures.resident o = none := Option.map_eq_none_iff.2 ht
      apply Transacts.one (.upload o (s.host.policy.upload s.host.log o)) hn
      · apply holdings_keepUpload
      · intro _ hx
        cases hx
    | some e =>
      have hs : s.inventory.textures.resident o ≠ none := by
        rw [Cache.resident_of_find? ht]
        apply Option.some_ne_none
      apply Transacts.one (.replace o (s.host.policy.upload s.host.log o)) hs
      · rw [holdings_keepUpload]
        cases s.host.policy.upload s.host.log o <;> rfl
      · intro hk
        apply absurd (hk o e ht) (Nat.not_lt.2 (Cache.peek_eq_none_iff.1 h e ht))

/-- An act is a course of transactions. -/
theorem Act.transacts (a : Act) (ha : a.Allowed s) :
  Transacts s (a.run s)
  := by
  cases a with
  | call e => apply Transacts.one (.call e) ha rfl fun _ => id
  | keepValues texts icons => exact .of_eq rfl
  | present canvases => exact .of_eq rfl
  | plan schedule => exact .of_eq rfl
  | canvasOf o => exact .of_eq rfl
  | mount o m =>
    apply Transacts.of_eq
    simp only [Act.run, update, holdings]
    rw [Inventory.mount_eq]
  | touch o =>
    apply Transacts.of_eq
    simp only [Act.run, query, holdings, Inventory.touch_eq]
    split
    · simp
    · rfl
  | unmount o cause accept => exact .of_eq rfl
  | findRenderer o =>
    apply Transacts.of_eq
    simp [Act.run, query, holdings, Inventory.findRenderer]
  | create o =>
    have hn : s.inventory.renderers.resident o = none := by
      apply Option.map_eq_none_iff.2 ha
    apply Transacts.one (.create o ⟨s.host.log.renderers + 1⟩) ⟨hn, rfl⟩
    · simp only [Act.run, Studio.create, Host.createRenderer, holdings, Transaction.after,
        Cache.resident_create]
      rfl
    · intro _ hx
      cases hx
  | dismantle o expiredAt => apply transacts_dismantle
  | texture o => apply transacts_texture
  | dropTexture o => apply transacts_dropTexture
  | setTheme o t =>
    apply Transacts.one (.dress o t) trivial
    · simp only [Act.run, update, Inventory.setTheme, holdings, Transaction.after,
        Cache.resident_insert]
      rfl
    · intro _ hx
      cases hx
  | themeOf o =>
    apply Transacts.of_eq
    simp [Act.run, query, holdings, Inventory.themeOf]

/-- A course of acts is a course of transactions. -/
theorem Course.exists_transactions {P : Studio → Act → Prop} (h : Course P s s') :
  ∃ xs, Holdings.Course s.holdings xs s'.holdings
  := by
  induction h with
  | nil s =>
    use []
    apply Holdings.Course.nil
  | cons a _ ha _ ih =>
    obtain ⟨xs, hx, -⟩ := (a.transacts ha).exists_course
    obtain ⟨ys, hy⟩ := ih
    use xs ++ ys
    apply hx.append hy

/-- What a course does to the host is to record calls. -/
theorem Course.exists_calls {P : Studio → Act → Prop} (h : Course P s s') :
  ∃ es, s'.host = s.host.recordAll es
  := by
  obtain ⟨xs, hx⟩ := h.exists_transactions
  use xs.flatMap Transaction.events
  apply hx.host_eq

theorem Course.policy_eq {P : Studio → Act → Prop} (h : Course P s s') :
  s'.host.policy = s.host.policy
  := by
  obtain ⟨es, he⟩ := h.exists_calls
  rw [he, Host.policy_recordAll]

theorem Course.balanced {P : Studio → Act → Prop} (h : Course P s s')
    (hb : s.holdings.Balanced) :
  s'.holdings.Balanced
  := by
  obtain ⟨xs, hx⟩ := h.exists_transactions
  apply hx.balanced hb

/-! ### The balance of a studio -/

theorem balanced_ofConfig (layouts : Layouts) (c : Config) (policy : Policy) :
  (ofConfig layouts c policy).holdings.Balanced
  := by
  constructor
  · rfl
  · intro o r
    have hnone : (ofConfig layouts c policy).holdings.renderers o = none :=
      Option.map_eq_none_iff.2 (Store.find?_empty _ _)
    rw [hnone]
    rfl
  · rfl

/-- The renderers that were created are those resident and those destroyed. -/
theorem created_perm (hb : s.holdings.Balanced) :
  s.host.log.created.Perm (s.inventory.renderers.toList ++ s.host.log.destroyed)
  := by
  rw [List.perm_iff_count]
  rintro ⟨o, r⟩
  have hcount := hb.renderers o r
  change s.host.log.created.count (o, r) = s.host.log.destroyed.count (o, r)
    + (s.inventory.renderers.resident o).toList.count r at hcount
  rw [List.count_append, Cache.count_toList, hcount, Nat.add_comm]

theorem texturesBalanced_ofConfig (layouts : Layouts) (c : Config) (policy : Policy) :
  (ofConfig layouts c policy).holdings.TexturesBalanced
  := by
  intro o t
  have hnone : (ofConfig layouts c policy).holdings.textures o = none :=
    Option.map_eq_none_iff.2 (Store.find?_empty _ _)
  rw [hnone]
  rfl

/-- The textures are balanced if those uploaded are those resident and those deleted. -/
theorem texturesBalanced_iff :
  s.holdings.TexturesBalanced
    ↔ s.host.log.uploaded.Perm (s.inventory.textures.toList ++ s.host.log.deleted)
  := by
  rw [Holdings.TexturesBalanced, List.perm_iff_count, Prod.forall]
  apply forall₂_congr
  intro o t
  rw [List.count_append, Cache.count_toList, Nat.add_comm]
  rfl

end Studio

end FrameCache
