import FrameCache.Proofs.TextureAccounts

/-!
# What lasts

Textures and themes are kept until the last instant that a clock can show.  So the texture of an
object is the one last uploaded for it, as long as it was not deleted since, and its theme is the
one last set, as long as no renderer of the object was destroyed since.

At the last instant both count as expired although nothing was deleted or destroyed.  They are not
handed out then, and a texture that is asked for takes the place of another that stays uploaded.
-/

namespace FrameCache

/-! ### The texture on record -/

/-- The texture last uploaded for an object, unless it was deleted since.  The latest call is
listed first. -/
def textureAfter (o : ObjectId) : List Event → Option Texture
  | [] => none
  | .textureCreated o' (some t) :: es => if o' = o then some t else textureAfter o es
  | .textureDeleted o' _ :: es => if o' = o then none else textureAfter o es
  | _ :: es => textureAfter o es

theorem Event.IsPlain.textureAfter {e : Event} (h : e.IsPlain) (o : ObjectId) (es : List Event) :
  textureAfter o (e :: es) = FrameCache.textureAfter o es
  := by
  cases e <;> first | exact h.elim | rfl

/-- The texture last uploaded for an object, unless it was deleted since. -/
def Log.lastTexture (l : Log) (o : ObjectId) : Option Texture := textureAfter o l.events

/-- The textures that are held are those on record. -/
def Holdings.OnRecord (h : Holdings) : Prop := ∀ o, h.textures o = h.host.log.lastTexture o

/-- A transaction keeps the textures on record. -/
theorem Holdings.OnRecord.after {h : Holdings} {x : Transaction} (hx : x.Allowed h)
    (hr : h.OnRecord) :
  (x.after h).OnRecord
  := by
  intro o
  have hbefore := hr o
  rw [Log.lastTexture] at hbefore
  rw [Log.lastTexture, Transaction.host_after, Host.events_recordAll]
  cases x with
  | call e =>
    change h.textures o = textureAfter o (e :: h.host.log.events)
    rw [hbefore, Event.IsPlain.textureAfter hx]
  | create o' r => exact hbefore
  | dismantle o' r t =>
    by_cases ho : o' = o
    · subst ho
      have ht : h.textures o' = t := hx.2
      cases t with
      | none => simp [Transaction.after, Transaction.events, textureAfter, ← hbefore, ht]
      | some t => simp [Transaction.after, Transaction.events, textureAfter]
    · cases t <;>
        simp [Transaction.after, Transaction.events, textureAfter, ho, Ne.symm ho, hbefore]
  | upload o' t | replace o' t =>
    cases t with
    | none => exact hbefore
    | some t =>
      by_cases ho : o' = o
      · subst ho
        simp [Transaction.after, Transaction.events, textureAfter]
      · simp [Transaction.after, Transaction.events, textureAfter, ho, Ne.symm ho, hbefore]
  | drop o' t =>
    by_cases ho : o' = o
    · subst ho
      simp [Transaction.after, Transaction.events, textureAfter]
    · simp [Transaction.after, Transaction.events, textureAfter, ho, Ne.symm ho, hbefore]
  | dress o' t => exact hbefore

/-! ### Entries that last -/

/-- What has its deadline at the last instant is alive until then. -/
theorem Cache.peek_of_lasting {K V : Type} [DecidableEq K] {c : Cache K V} {k : K}
    (h : ∀ e, c.store.find? k = some e → e.deadline.nanos = horizon) (now : Instant) :
  c.peek k now = if now.nanos < horizon then c.resident k else none
  := by
  rw [peek, resident]
  cases hk : c.store.find? k with
  | none => simp
  | some e => simp [Option.filter, Instant.lt_iff, h e hk]

namespace Studio

variable {s s' : Studio} {c : Config} {P : Studio → Act → Prop} {o : ObjectId} {t : Texture}

/-! ### Textures -/

theorem onRecord_ofConfig (layouts : Layouts) (c : Config) (policy : Policy) :
  (ofConfig layouts c policy).holdings.OnRecord
  := fun _ => Option.map_eq_none_iff.2 (Store.find?_empty _ _)

theorem onRecord_serveAll (h : s.holdings.OnRecord) (rs : List (Instant × Request)) :
  (s.serveAll rs).holdings.OnRecord
  := by
  apply List.foldlRecOn (motive := fun s : Studio => s.holdings.OnRecord) rs _ h
  intro s h r _
  obtain ⟨xs, hx⟩ := (course_serve (s.atTime r.1) r.2).exists_transactions
  exact hx.invariant (fun _ _ => Holdings.OnRecord.after) h

theorem regular_serveAll (h : s.Regular c) (rs : List (Instant × Request)) :
  (s.serveAll rs).Regular c
  := by
  apply List.foldlRecOn (motive := fun s : Studio => s.Regular c) rs _ h
  intro s h r _
  exact (h.atTime r.1).course (course_serve _ r.2)

/-- The texture of an object is the one on record, unless the last instant has come. -/
theorem findTexture_eq (hr : s.Regular c) (h : s.holdings.OnRecord) (o : ObjectId) :
  s.inventory.findTexture o s.now
    = if s.now.nanos < horizon then s.host.log.lastTexture o else none
  := by
  rw [← show s.inventory.textures.resident o = s.host.log.lastTexture o from h o]
  exact Cache.peek_of_lasting (hr.lasting o) s.now

/-- An act before the last instant leaves a texture where it is, or deletes it. -/
theorem Act.held_or_deleted {a : Act} (ha : a.Allowed s) (hk : s.KeepsTextures)
    (ht : s.inventory.textures.resident o = some t) :
  ∃ es, (a.run s).host = s.host.recordAll es
    ∧ ((a.run s).inventory.textures.resident o = some t ∨ .textureDeleted o t ∈ es)
  := by
  cases a.transacts ha with
  | of_eq h =>
    refine ⟨[], congrArg Holdings.host h, Or.inl ?_⟩
    rw [← ht]
    exact congrFun (congrArg Holdings.textures h) o
  | one x hx h hr =>
    have htextures : (a.run s).inventory.textures.resident o = (x.after s.holdings).textures o :=
      congrFun (congrArg Holdings.textures h) o
    refine ⟨x.events, (congrArg Holdings.host h).trans (Transaction.host_after _ x), ?_⟩
    rw [htextures]
    apply (Transaction.textures_after_of_held hx (hr hk) ht).imp_right
    intro hnone
    have hcount := Transaction.count_deleted hx (hr hk) o t
    rw [if_pos ⟨ht, hnone⟩, ← (Transaction.accounts_events hx).2.2.2.2] at hcount
    have hmem : (o, t) ∈ x.events.filterMap Event.deleted? := List.count_pos_iff.1 (by omega)
    obtain ⟨e, he, hdeleted⟩ := List.mem_filterMap.1 hmem
    cases e <;> cases hdeleted
    exact he

/-- As long as the last instant does not come, a texture is displaced only if it is deleted. -/
theorem Course.held_or_deleted (h : Course P s s') (hr : s.Regular c)
    (hnow : s.now.nanos < horizon) {new : List Call}
    (hnew : s'.host.log.calls = new ++ s.host.log.calls)
    (hended : ∀ call ∈ new, call.ended.nanos < horizon)
    (ht : s.inventory.textures.resident o = some t) :
  s'.inventory.textures.resident o = some t ∨ .textureDeleted o t ∈ new.map Call.event
  := by
  induction h generalizing new with
  | nil s => exact Or.inl ht
  | @cons s s' a _ ha rest ih =>
    obtain ⟨es, hes, hheld⟩ := Act.held_or_deleted ha (hr.keepsTextures hnow) ht
    obtain ⟨first, hfirst⟩ := Host.extends_recordAll s.host es
    obtain ⟨later, hlater⟩ := rest.extends_log
    have hsplit : new = later ++ first := by
      rw [hlater, hes, hfirst, ← List.append_assoc, List.append_cancel_right_eq] at hnew
      exact hnew.symm
    subst hsplit
    have hnow' : (a.run s).host.now.nanos < horizon := by
      rw [hes]
      apply Host.now_lt_of_calls hnow hfirst
      exact fun call hcall => hended call (List.mem_append_right _ hcall)
    rw [List.map_append, List.mem_append]
    rcases hheld with hheld | hdeleted
    · apply (ih (hr.run a) hnow' hlater _ hheld).imp_right Or.inl
      exact fun call hcall => hended call (List.mem_append_left _ hcall)
    · refine Or.inr (Or.inr ?_)
      have hevents := Host.events_recordAll s.host es
      rw [Log.events, hfirst, List.map_append] at hevents
      rw [List.append_cancel_right hevents, List.mem_reverse]
      exact hdeleted

/-! ### Themes -/

/-- What an act does to the themes. -/
theorem Act.themes_run (s : Studio) (a : Act) :
  (∃ o t, a = .setTheme o t
      ∧ (a.run s).inventory.themes = (s.inventory.themes.insert o s.now t).2)
    ∨ (∃ o, (a.run s).inventory.themes = (s.inventory.themes.get o s.now).2)
    ∨ (∃ o r, (a.run s).inventory.themes = (s.inventory.themes.remove o).2
      ∧ (a.run s).host.log.destroyed = (o, r) :: s.host.log.destroyed)
    ∨ (a.run s).inventory.themes = s.inventory.themes
  := by
  cases a with
  | setTheme o t => exact Or.inl ⟨o, t, rfl, rfl⟩
  | themeOf o => exact Or.inr (Or.inl ⟨o, rfl⟩)
  | dismantle o expiredAt =>
    rw [Act.run]
    cases h : s.lapsedRenderer o expiredAt with
    | none =>
      rw [dismantle_of_none h]
      exact Or.inr (Or.inr (Or.inr rfl))
    | some r =>
      rw [dismantle_of_some h]
      refine Or.inr (Or.inr (Or.inl ⟨o, r, rfl, ?_⟩))
      rw [Log.destroyed, Host.filterMap_recordAll]
      cases s.inventory.textures.resident o <;> rfl
  | mount o m =>
    rw [Act.run, update, Inventory.mount_eq]
    exact Or.inr (Or.inr (Or.inr rfl))
  | touch o =>
    rw [Act.run, query, Inventory.touch_eq]
    exact Or.inr (Or.inr (Or.inr rfl))
  | texture o =>
    refine Or.inr (Or.inr (Or.inr ?_))
    rw [Act.run]
    cases h : s.inventory.textures.peek o s.now with
    | some t => rw [texture_of_live h]
    | none =>
      rw [texture_of_not_live h]
      rfl
  | dropTexture o =>
    rw [Act.run, dropTexture_eq]
    exact Or.inr (Or.inr (Or.inr rfl))
  | _ => exact Or.inr (Or.inr (Or.inr rfl))

/-- Themes are kept until the last instant. -/
structure ThemesLast (s : Studio) : Prop where
  /-- Themes have the longest lifetime there is. -/
  lifetime : s.inventory.themes.lifetime = .forever
  /-- Themes live until the last instant. -/
  lasting : ∀ o e, s.theme? o = some e → e.deadline.nanos = horizon

namespace ThemesLast

theorem run (h : s.ThemesLast) (a : Act) :
  (a.run s).ThemesLast
  := by
  have hforever : (s.now.after s.inventory.themes.lifetime).nanos = horizon := by
    rw [h.lifetime, Instant.nanos_after_forever]
  rcases a.themes_run s with ⟨o, t, -, hset⟩ | ⟨o, hget⟩ | ⟨o, r, hremove, -⟩ | heq
  · constructor
    · rw [hset, Cache.lifetime_insert, h.lifetime]
    · intro o' e he
      rw [theme?, hset, Cache.find?_insert] at he
      split at he
      · cases he
        exact hforever
      · exact h.lasting o' e he
  · constructor
    · rw [hget, Cache.lifetime_get, h.lifetime]
    · intro o' e he
      rw [theme?, hget] at he
      cases hp : s.inventory.themes.peek o s.now with
      | none =>
        rw [Cache.find?_get_of_not_live _ _ _ _ hp] at he
        exact h.lasting o' e he
      | some t =>
        rw [Cache.find?_get_of_live _ _ _ _ hp] at he
        split at he
        · cases he
          exact hforever
        · exact h.lasting o' e he
  · constructor
    · rw [hremove, Cache.lifetime_remove, h.lifetime]
    · intro o' e he
      rw [theme?, hremove, Cache.find?_remove] at he
      split at he
      · cases he
      · exact h.lasting o' e he
  · constructor
    · rw [heq, h.lifetime]
    · intro o' e he
      rw [theme?, heq] at he
      exact h.lasting o' e he

theorem serveAll (h : s.ThemesLast) (rs : List (Instant × Request)) :
  (s.serveAll rs).ThemesLast
  := by
  apply List.foldlRecOn (motive := ThemesLast) rs _ h
  intro s h r _
  have htime : (s.atTime r.1).ThemesLast := ⟨h.lifetime, h.lasting⟩
  exact (course_serve (s.atTime r.1) r.2).invariant (fun _ a _ _ hs => hs.run a) htime

end ThemesLast

theorem themesLast_ofConfig (layouts : Layouts) (c : Config) (policy : Policy) :
  (ofConfig layouts c policy).ThemesLast
  := by
  constructor
  · rfl
  · intro o e he
    rw [show (ofConfig layouts c policy).theme? o = none from Store.find?_empty _ _] at he
    cases he

end Studio

/-- How many renderers of an object were destroyed. -/
def Log.destructions (l : Log) (o : ObjectId) : Nat := (l.destroyed.map Prod.fst).count o

theorem Log.Extends.destructions_le {l l' : Log} (h : Extends l l') (o : ObjectId) :
  l.destructions o ≤ l'.destructions o
  := by
  obtain ⟨new, hnew⟩ := h.events
  rw [destructions, destructions, destroyed, destroyed, hnew, List.filterMap_append,
    List.map_append, List.count_append]
  exact Nat.le_add_left _ _

namespace Studio

variable {s s' : Studio} {P : Studio → Act → Prop} {o : ObjectId} {worn : WidgetTheme}

/-- A theme stays unless another is set or a renderer of the object is destroyed. -/
theorem Act.keeps_theme {a : Act} (hset : ∀ t, a ≠ .setTheme o t)
    (hkept : (a.run s).host.log.destructions o = s.host.log.destructions o)
    (h : s.inventory.themes.resident o = some worn) :
  (a.run s).inventory.themes.resident o = some worn
  := by
  rcases a.themes_run s with ⟨o', t, ha, hthemes⟩ | ⟨o', hthemes⟩ | ⟨o', r, hthemes, hlog⟩ | hthemes
  · have ho : o ≠ o' := by
      rintro rfl
      exact hset t ha
    rw [hthemes, Cache.resident_insert, Function.update_apply, if_neg ho, h]
  · rw [hthemes, Cache.resident_get, h]
  · have ho : o ≠ o' := by
      rintro rfl
      rw [Log.destructions, Log.destructions, hlog, List.map_cons, List.count_cons_self] at hkept
      omega
    rw [hthemes, Cache.resident_remove, Function.update_apply, if_neg ho, h]
  · rw [hthemes, h]

theorem Course.keeps_theme (hc : Course P s s') (hset : ∀ s a, P s a → ∀ t, a ≠ .setTheme o t)
    (hkept : s'.host.log.destructions o = s.host.log.destructions o)
    (h : s.inventory.themes.resident o = some worn) :
  s'.inventory.themes.resident o = some worn
  := by
  induction hc with
  | nil => exact h
  | cons a hp ha rest ih =>
    have hfirst := (Course.single a hp ha).extends_log.destructions_le o
    have hrest := rest.extends_log.destructions_le o
    apply ih (by omega) (Act.keeps_theme (hset _ a hp) (by omega) h)

theorem keeps_theme_serveAll (rs : List (Instant × Request))
    (hset : ∀ x ∈ rs, ∀ t, x.2 ≠ .setTheme o t)
    (hkept : (s.serveAll rs).host.log.destructions o = s.host.log.destructions o)
    (h : s.inventory.themes.resident o = some worn) :
  (s.serveAll rs).inventory.themes.resident o = some worn
  := by
  induction rs generalizing s with
  | nil => exact h
  | cons x rs ih =>
    have hcourse := course_serve_dressing (s.atTime x.1) x.2
    have hfirst := hcourse.extends_log.destructions_le o
    have hrest := (((s.atTime x.1).serve x.2).extends_serveAll rs).destructions_le o
    change s.host.log.destructions o ≤ _ at hfirst
    change (((s.atTime x.1).serve x.2).serveAll rs).host.log.destructions o = _ at hkept
    have hone : ((s.atTime x.1).serve x.2).host.log.destructions o
        = s.host.log.destructions o := by omega
    apply ih (fun x' hx' => hset x' (List.mem_cons_of_mem _ hx')) (hkept.trans hone.symm)
    apply hcourse.keeps_theme _ hone h
    intro _ a ha t hat
    exact hset x List.mem_cons_self t (ha o t hat)

/-! ### What lasts until the last instant -/

/-- Neither textures nor themes expire before the last instant.  Whatever requests a studio has
served, at whatever readings of the clock, at any other instant the texture of an object is the one
last uploaded for it, unless it was deleted since; it is handed out without any call to the host,
and while a request is served it leaves the cache only if it is deleted.  The theme of an object is
the one last set, unless a renderer of the object was destroyed since.  At the last instant there
is neither texture nor theme. -/
theorem textures_and_themes_last (layouts : Layouts) (config : Config) (policy : Policy)
    (rs : List (Instant × Request)) (t : Instant) :
  let s := ((ofConfig layouts config policy).serveAll rs).atTime t
  (∀ o, s.inventory.findTexture o s.now
      = if t.nanos < horizon then s.host.log.lastTexture o else none)
    ∧ (t.nanos < horizon → ∀ o h, s.host.log.lastTexture o = some h →
      (s.texture o).1 = some h ∧ (s.texture o).2.host = s.host)
    ∧ (t.nanos < horizon → ∀ r new, (s.serve r).host.log.calls = new ++ s.host.log.calls →
      (∀ call ∈ new, call.ended.nanos < horizon) →
      ∀ o h, s.inventory.textures.resident o = some h →
        (s.serve r).inventory.textures.resident o = some h
          ∨ .textureDeleted o h ∈ new.map Call.event)
    ∧ (∀ o theme earlier set later, rs = earlier ++ (set, .setTheme o theme) :: later →
      (∀ x ∈ later, ∀ theme', x.2 ≠ .setTheme o theme') →
      s.host.log.destructions o
        = ((ofConfig layouts config policy).serveAll earlier).host.log.destructions o →
      (s.inventory.themeOf o s.now).1 = if t.nanos < horizon then some theme else none)
  := by
  intro s
  have hregular : s.Regular config :=
    (regular_serveAll (regular_ofConfig layouts config policy) rs).atTime t
  have hrecord : s.holdings.OnRecord :=
    onRecord_serveAll (onRecord_ofConfig layouts config policy) rs
  refine ⟨findTexture_eq hregular hrecord, ?_, ?_, ?_⟩
  · intro hnow o h hlast
    have hlive : s.inventory.textures.peek o s.now = some h := by
      refine (findTexture_eq hregular hrecord o).trans ?_
      rw [← hlast, if_pos (show s.now.nanos < horizon from hnow)]
    rw [texture_of_live hlive]
    exact ⟨rfl, rfl⟩
  · intro hnow r new hnew hended o h
    exact (course_serve s r).held_or_deleted hregular hnow hnew hended
  · rintro o worn earlier set later rfl hset hkept
    let undressed := ((ofConfig layouts config policy).serveAll earlier).atTime set
    let dressed := undressed.serve (.setTheme o worn)
    have hsplit : s = (dressed.serveAll later).atTime t := by
      simp only [s, serveAll, List.foldl_append, List.foldl_cons]
      rfl
    have hset' : dressed.inventory.themes.resident o = some worn := by
      change (Cache.insert _ o set worn).2.resident o = some worn
      rw [Cache.resident_insert, Function.update_self]
    have hworn : s.inventory.themes.resident o = some worn := by
      rw [hsplit] at hkept ⊢
      exact keeps_theme_serveAll later hset hkept hset'
    have hlast : s.ThemesLast := by
      have hthemes := (themesLast_ofConfig layouts config policy).serveAll
        (earlier ++ (set, .setTheme o worn) :: later)
      exact ⟨hthemes.lifetime, hthemes.lasting⟩
    rw [Inventory.themeOf, Cache.fst_get, Cache.peek_of_lasting (hlast.lasting o), hworn]
    rfl

/-- A theme set anew, and a texture; another object expires and is swept. -/
def keepsakes : List (Instant × Request) :=
  [(.ofNanos 1, .texture ⟨1⟩), (.ofNanos 2, .setTheme ⟨1⟩ ⟨"light"⟩), (.ofNanos 3, .renderer ⟨2⟩),
    (.ofNanos 4, .setTheme ⟨1⟩ ⟨"dark"⟩), (.ofNanos (horizon - 2), .sweep true [⟨1⟩])]

theorem textures_and_themes_last_keepsakes :
  let s := ((ofConfig .spread .standard .prompt).serveAll keepsakes).atTime (.ofNanos (horizon - 1))
  s.host.log.destructions ⟨2⟩ = 1
    ∧ s.inventory.findTexture ⟨1⟩ s.now = some ⟨1⟩
    ∧ (s.texture ⟨1⟩).1 = some ⟨1⟩ ∧ (s.texture ⟨1⟩).2.host = s.host
    ∧ (s.serve (.dropTexture ⟨1⟩)).inventory.textures.resident ⟨1⟩ = none
    ∧ .textureDeleted ⟨1⟩ ⟨1⟩ ∈ (s.serve (.dropTexture ⟨1⟩)).host.log.events
    ∧ (s.inventory.themeOf ⟨1⟩ s.now).1 = some ⟨"dark"⟩
  := by
  intro s
  have hnow : (Instant.ofNanos (horizon - 1)).nanos < horizon := by decide +kernel
  have hlast : s.host.log.lastTexture ⟨1⟩ = some ⟨1⟩ := by decide +kernel
  have hheld : s.inventory.textures.resident ⟨1⟩ = some ⟨1⟩ := by decide +kernel
  have hgone : (s.serve (.dropTexture ⟨1⟩)).inventory.textures.resident ⟨1⟩ = none := by
    decide +kernel
  have hended : ∀ call ∈ (s.serve (.dropTexture ⟨1⟩)).host.log.calls,
      call.ended.nanos < horizon := by
    decide +kernel
  dsimp only [s] at hlast hheld hgone hended ⊢
  obtain ⟨hfind, htexture, hdisplaced, htheme⟩ :=
    textures_and_themes_last .spread .standard .prompt keepsakes (.ofNanos (horizon - 1))
  obtain ⟨hhanded, hsilent⟩ := htexture hnow ⟨1⟩ ⟨1⟩ hlast
  refine ⟨by decide +kernel, ?_, hhanded, hsilent, hgone, ?_, ?_⟩
  · rw [hfind ⟨1⟩, if_pos hnow]
    exact hlast
  · obtain ⟨new, hnew⟩ := (course_serve
      (((ofConfig .spread .standard .prompt).serveAll keepsakes).atTime (.ofNanos (horizon - 1)))
      (.dropTexture ⟨1⟩)).extends_log
    rw [hnew] at hended
    rcases hdisplaced hnow (.dropTexture ⟨1⟩) new hnew
      (fun call hcall => hended call (List.mem_append_left _ hcall)) ⟨1⟩ ⟨1⟩ hheld
      with hkept | hdeleted
    · rw [hkept] at hgone
      cases hgone
    · rw [Log.events, hnew, List.map_append]
      exact List.mem_append_left _ hdeleted
  · exact htheme ⟨1⟩ ⟨"dark"⟩
      [(.ofNanos 1, .texture ⟨1⟩), (.ofNanos 2, .setTheme ⟨1⟩ ⟨"light"⟩),
        (.ofNanos 3, .renderer ⟨2⟩)]
      (.ofNanos 4) [(.ofNanos (horizon - 2), .sweep true [⟨1⟩])] rfl (by simp) (by decide +kernel)

/-- At the last instant nothing is left: neither the texture nor the theme is handed out, and the
texture that is uploaded in place of the first one displaces it without any deletion. -/
theorem texture_displaced_at_horizon :
  let s := ((ofConfig .spread .standard .prompt).serveAll
    [(.ofNanos 1, .texture ⟨1⟩), (.ofNanos 1, .setTheme ⟨1⟩ ⟨"dark"⟩)]).atTime (.ofNanos horizon)
  s.inventory.textures.resident ⟨1⟩ = some ⟨1⟩ ∧ s.inventory.findTexture ⟨1⟩ s.now = none
    ∧ (s.serve (.texture ⟨1⟩)).inventory.textures.resident ⟨1⟩ = some ⟨2⟩
    ∧ (s.serve (.texture ⟨1⟩)).host.log.deleted = []
    ∧ s.host.log.destructions ⟨1⟩ = 0 ∧ (s.inventory.themeOf ⟨1⟩ s.now).1 = none
  := by
  decide +kernel

end Studio

end FrameCache
