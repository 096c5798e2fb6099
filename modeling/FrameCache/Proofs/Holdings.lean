import FrameCache.Proofs.StudioView
import Mathlib.Data.List.Basic
import Mathlib.Logic.Function.Basic

/-!
# Holdings and transactions

The `Holdings` of a studio are the renderers, textures and themes that it keeps, and its
host.  A `Transaction` is a change of the holdings together with the calls that belong to
it, made one right after the other.  Giving back a renderer is a single transaction: with
the renderer the texture and the theme of its object go.

Balanced holdings account for all renderers: each renderer that was ever created is either
held, once, or was destroyed, once.
-/

namespace FrameCache

/-! ### Accounts of the log -/

namespace Event

/-- The renderer that a call creates. -/
def created? : Event → Option (ObjectId × Renderer)
  | .rendererCreated o r => some (o, r)
  | _ => none

/-- The renderer that a call destroys. -/
def destroyed? : Event → Option (ObjectId × Renderer)
  | .rendererDestroyed o r => some (o, r)
  | _ => none

/-- The object whose renderer is released by a call. -/
def released? : Event → Option ObjectId
  | .rendererReleased o => some o
  | _ => none

/-- The texture that a call uploads. -/
def uploaded? : Event → Option (ObjectId × Texture)
  | .textureCreated o t => t.map (Prod.mk o)
  | _ => none

/-- The texture that a call deletes. -/
def deleted? : Event → Option (ObjectId × Texture)
  | .textureDeleted o t => some (o, t)
  | _ => none

/-- The call neither creates nor gives back a resource. -/
def IsPlain : Event → Prop
  | .rendererCreated _ _ | .rendererDestroyed _ _ | .rendererReleased _ => False
  | .textureCreated _ _ | .textureDeleted _ _ => False
  | _ => True

/-- A plain call appears in no account. -/
theorem IsPlain.accounts {e : Event} (h : e.IsPlain) :
  e.created? = none ∧ e.destroyed? = none ∧ e.released? = none ∧ e.uploaded? = none
    ∧ e.deleted? = none
  := by
  cases e <;> first | exact h.elim | exact ⟨rfl, rfl, rfl, rfl, rfl⟩

end Event

namespace Log

/-- The renderers created so far, the latest first. -/
def created (l : Log) : List (ObjectId × Renderer) := l.events.filterMap Event.created?

/-- The renderers destroyed so far, the latest first. -/
def destroyed (l : Log) : List (ObjectId × Renderer) := l.events.filterMap Event.destroyed?

/-- The objects whose renderer was released, the latest first. -/
def released (l : Log) : List ObjectId := l.events.filterMap Event.released?

/-- The textures uploaded so far, the latest first. -/
def uploaded (l : Log) : List (ObjectId × Texture) := l.events.filterMap Event.uploaded?

/-- The textures deleted so far, the latest first. -/
def deleted (l : Log) : List (ObjectId × Texture) := l.events.filterMap Event.deleted?

end Log

namespace Host

theorem events_recordAll (h : Host) (es : List Event) :
  (h.recordAll es).log.events = es.reverse ++ h.log.events
  := by
  induction es generalizing h with
  | nil => rfl
  | cons e es ih =>
    have hrecord : (h.record e).log.events = e :: h.log.events := rfl
    change ((h.record e).recordAll es).log.events = _
    rw [ih, hrecord, List.reverse_cons, List.append_assoc]
    rfl

theorem filterMap_recordAll {α : Type} (f : Event → Option α) (h : Host) (es : List Event) :
  (h.recordAll es).log.events.filterMap f = (es.filterMap f).reverse ++ h.log.events.filterMap f
  := by
  rw [events_recordAll, List.filterMap_append, List.filterMap_reverse]

theorem renderers_recordAll (h : Host) (es : List Event) :
  (h.recordAll es).log.renderers = h.log.renderers + (es.filterMap Event.created?).length
  := by
  induction es generalizing h with
  | nil => rfl
  | cons e es ih =>
    change ((h.record e).recordAll es).log.renderers = _
    rw [ih, List.filterMap_cons]
    cases e <;> simp [record, Log.add, Event.created?, Nat.add_comm, Nat.add_left_comm]

end Host

/-! ### Transactions -/

/-- What is held for the objects, and the host that it comes from. -/
structure Holdings where
  /-- The renderer of an object. -/
  renderers : ObjectId → Option Renderer
  /-- The texture of an object. -/
  textures : ObjectId → Option Texture
  /-- The theme of an object. -/
  themes : ObjectId → Option WidgetTheme
  /-- The host. -/
  host : Host

/-- A change of what is held. -/
inductive Transaction where
  /-- A call that concerns no resource. -/
  | call (e : Event)
  /-- A renderer is created. -/
  | create (o : ObjectId) (r : Renderer)
  /-- A renderer is given back with the texture and the theme of its object. -/
  | dismantle (o : ObjectId) (r : Renderer) (t : Option Texture)
  /-- A texture is uploaded, or the upload fails. -/
  | upload (o : ObjectId) (t : Option Texture)
  /-- A texture is uploaded in the place of one that is not alive any more. -/
  | replace (o : ObjectId) (t : Option Texture)
  /-- A texture is deleted. -/
  | drop (o : ObjectId) (t : Texture)
  /-- A theme is set. -/
  | dress (o : ObjectId) (t : WidgetTheme)

namespace Transaction

/-- The calls of a transaction, the earliest first. -/
def events : Transaction → List Event
  | .call e => [e]
  | .create o r => [.rendererCreated o r]
  | .dismantle o r t =>
    .rendererDestroyed o r :: .rendererReleased o :: t.toList.map (.textureDeleted o)
  | .upload o t => [.textureCreated o t]
  | .replace o t => [.textureCreated o t]
  | .drop o t => [.textureDeleted o t]
  | .dress _ _ => []

/-- What is held after a transaction. -/
def after (h : Holdings) (x : Transaction) : Holdings :=
  let h := { h with host := h.host.recordAll x.events }
  match x with
  | .call _ => h
  | .create o r => { h with renderers := Function.update h.renderers o (some r) }
  | .dismantle o _ _ =>
    { h with
      renderers := Function.update h.renderers o none
      textures := Function.update h.textures o none
      themes := Function.update h.themes o none }
  | .upload _ none => h
  | .upload o (some t) => { h with textures := Function.update h.textures o (some t) }
  | .replace _ none => h
  | .replace o (some t) => { h with textures := Function.update h.textures o (some t) }
  | .drop o _ => { h with textures := Function.update h.textures o none }
  | .dress o t => { h with themes := Function.update h.themes o (some t) }

/-- What is created gets the next number where nothing is held, and what is given back is
what is held. -/
def Allowed (h : Holdings) : Transaction → Prop
  | .call e => e.IsPlain
  | .create o r => h.renderers o = none ∧ r.serial = h.host.log.renderers + 1
  | .dismantle o r t => h.renderers o = some r ∧ h.textures o = t
  | .upload o _ => h.textures o = none
  | .replace o _ => h.textures o ≠ none
  | .drop o t => h.textures o = some t
  | .dress _ _ => True

end Transaction

namespace Holdings

/-- The transactions `xs` lead from one state of the holdings to another. -/
inductive Course : Holdings → List Transaction → Holdings → Prop where
  | nil (h : Holdings) : Course h [] h
  | cons {h h' : Holdings} {xs : List Transaction} (x : Transaction) (hx : x.Allowed h)
      (rest : Course (x.after h) xs h') : Course h (x :: xs) h'

namespace Course

variable {h h' h'' : Holdings} {xs ys : List Transaction}

theorem single (x : Transaction) (hx : x.Allowed h) :
  Course h [x] (x.after h)
  := .cons x hx (.nil _)

theorem append (hc : Course h xs h') (hc' : Course h' ys h'') :
  Course h (xs ++ ys) h''
  := by
  induction hc with
  | nil => apply hc'
  | cons x hx _ ih => apply cons x hx (ih hc')

/-- What every transaction keeps is kept at every point of a course. -/
theorem invariant_take {I : Holdings → Prop}
    (hI : ∀ (h : Holdings) (x : Transaction), x.Allowed h → I h → I (x.after h))
    (hc : Course h xs h') (hs : I h) (n : Nat) :
  I ((xs.take n).foldl Transaction.after h)
  := by
  induction hc generalizing n with
  | nil =>
    rw [List.take_nil]
    apply hs
  | cons x hx _ ih =>
    cases n with
    | zero => apply hs
    | succ n => apply ih (hI _ x hx hs)

theorem end_eq (hc : Course h xs h') :
  h' = xs.foldl Transaction.after h
  := by
  induction hc with
  | nil => rfl
  | cons x _ _ ih => apply ih

theorem invariant {I : Holdings → Prop}
    (hI : ∀ (h : Holdings) (x : Transaction), x.Allowed h → I h → I (x.after h))
    (hc : Course h xs h') (hs : I h) :
  I h'
  := by
  have h := hc.invariant_take hI hs xs.length
  rw [List.take_length, ← hc.end_eq] at h
  apply h

end Course

end Holdings

/-! ### What a transaction adds to the accounts -/

namespace Transaction

/-- The renderer that is created. -/
def created : Transaction → List (ObjectId × Renderer)
  | .create o r => [(o, r)]
  | _ => []

/-- The renderer that is destroyed. -/
def destroyed : Transaction → List (ObjectId × Renderer)
  | .dismantle o r _ => [(o, r)]
  | _ => []

/-- The texture that is uploaded. -/
def uploaded : Transaction → List (ObjectId × Texture)
  | .upload o t | .replace o t => t.toList.map (Prod.mk o)
  | _ => []

/-- The texture that is deleted. -/
def deleted : Transaction → List (ObjectId × Texture)
  | .dismantle o _ t => t.toList.map (Prod.mk o)
  | .drop o t => [(o, t)]
  | _ => []

/-- The calls of a transaction say what it creates and gives back. -/
theorem accounts_events {h : Holdings} {x : Transaction} (hx : x.Allowed h) :
  x.events.filterMap Event.created? = x.created
    ∧ x.events.filterMap Event.destroyed? = x.destroyed
    ∧ x.events.filterMap Event.released? = x.destroyed.map Prod.fst
    ∧ x.events.filterMap Event.uploaded? = x.uploaded
    ∧ x.events.filterMap Event.deleted? = x.deleted
  := by
  cases x with
  | call e =>
    obtain ⟨hc, hd, hr, hu, hx⟩ := hx.accounts
    simp [events, created, destroyed, uploaded, deleted, hc, hd, hr, hu, hx]
  | create o r => exact ⟨rfl, rfl, rfl, rfl, rfl⟩
  | dismantle o r t => cases t <;> exact ⟨rfl, rfl, rfl, rfl, rfl⟩
  | upload o t => cases t <;> exact ⟨rfl, rfl, rfl, rfl, rfl⟩
  | replace o t => cases t <;> exact ⟨rfl, rfl, rfl, rfl, rfl⟩
  | drop o t => exact ⟨rfl, rfl, rfl, rfl, rfl⟩
  | dress o t => exact ⟨rfl, rfl, rfl, rfl, rfl⟩

theorem host_after (h : Holdings) (x : Transaction) :
  (x.after h).host = h.host.recordAll x.events
  := by
  cases x with
  | upload o t => cases t <;> rfl
  | replace o t => cases t <;> rfl
  | _ => rfl

theorem filterMap_after {α : Type} (f : Event → Option α) (h : Holdings) (x : Transaction) :
  (x.after h).host.log.events.filterMap f
    = (x.events.filterMap f).reverse ++ h.host.log.events.filterMap f
  := by
  rw [host_after]
  apply Host.filterMap_recordAll

section

variable {h : Holdings} {x : Transaction}

theorem created_after (hx : x.Allowed h) :
  (x.after h).host.log.created = x.created ++ h.host.log.created
  := by
  rw [Log.created, filterMap_after, (accounts_events hx).1]
  cases x <;> rfl

theorem destroyed_after (hx : x.Allowed h) :
  (x.after h).host.log.destroyed = x.destroyed ++ h.host.log.destroyed
  := by
  rw [Log.destroyed, filterMap_after, (accounts_events hx).2.1]
  cases x <;> rfl

theorem released_after (hx : x.Allowed h) :
  (x.after h).host.log.released = x.destroyed.map Prod.fst ++ h.host.log.released
  := by
  rw [Log.released, filterMap_after, (accounts_events hx).2.2.1]
  cases x <;> rfl

theorem uploaded_after (hx : x.Allowed h) :
  (x.after h).host.log.uploaded = x.uploaded ++ h.host.log.uploaded
  := by
  rw [Log.uploaded, filterMap_after, (accounts_events hx).2.2.2.1]
  cases x with
  | upload o t => cases t <;> rfl
  | replace o t => cases t <;> rfl
  | _ => rfl

theorem deleted_after (hx : x.Allowed h) :
  (x.after h).host.log.deleted = x.deleted ++ h.host.log.deleted
  := by
  rw [Log.deleted, filterMap_after, (accounts_events hx).2.2.2.2]
  cases x with
  | dismantle o r t => cases t <;> rfl
  | _ => rfl

theorem renderers_log_after (hx : x.Allowed h) :
  (x.after h).host.log.renderers = h.host.log.renderers + x.created.length
  := by
  rw [host_after, Host.renderers_recordAll, (accounts_events hx).1]

/-- The renderers created and those held before are the renderers destroyed and those held
afterwards. -/
theorem count_renderers (hx : x.Allowed h) (o : ObjectId) (r : Renderer) :
  x.created.count (o, r) + (h.renderers o).toList.count r
    = x.destroyed.count (o, r) + ((x.after h).renderers o).toList.count r
  := by
  cases x with
  | create o' r' =>
    by_cases ho : o' = o
    · subst ho
      simp [created, destroyed, after, hx.1, List.count_cons]
    · simp [created, destroyed, after, ho, Ne.symm ho]
  | dismantle o' r' t =>
    by_cases ho : o' = o
    · subst ho
      simp [created, destroyed, after, hx.1, List.count_cons]
    · simp [created, destroyed, after, ho, Ne.symm ho]
  | upload o' t => cases t <;> rfl
  | replace o' t => cases t <;> rfl
  | _ => rfl

/-- The transaction uploads a texture in the place of another. -/
def Replaces : Transaction → Prop
  | .replace _ _ => True
  | _ => False

/-- Unless a texture is replaced, those uploaded and those held before are those deleted and
those held afterwards. -/
theorem count_textures (hx : x.Allowed h) (hr : ¬ x.Replaces) (o : ObjectId) (t : Texture) :
  x.uploaded.count (o, t) + (h.textures o).toList.count t
    = x.deleted.count (o, t) + ((x.after h).textures o).toList.count t
  := by
  cases x with
  | dismantle o' r' t' =>
    by_cases ho : o' = o
    · subst ho
      cases t' <;> simp [uploaded, deleted, after, hx.2, List.count_cons]
    · cases t' <;> simp [uploaded, deleted, after, ho, Ne.symm ho]
  | upload o' t' =>
    have hn : h.textures o' = none := hx
    by_cases ho : o' = o
    · subst ho
      cases t' <;> simp [uploaded, deleted, after, hn, List.count_cons]
    · cases t' <;> simp [uploaded, deleted, after, ho, Ne.symm ho]
  | replace o' t' => exact absurd trivial hr
  | drop o' t' =>
    have hn : h.textures o' = some t' := hx
    by_cases ho : o' = o
    · subst ho
      simp [uploaded, deleted, after, hn, List.count_cons]
    · simp [uploaded, deleted, after, ho, Ne.symm ho]
  | _ => rfl

end

end Transaction

namespace Holdings

/-! ### Balance -/

/-- Every renderer ever created is either held or was destroyed, each of both once, and
renderers are released when they are destroyed. -/
structure Balanced (h : Holdings) : Prop where
  /-- Renderers are numbered in the order of their creation. -/
  numbered : h.host.log.created.map (fun p => p.2.serial)
    = (List.range' 1 h.host.log.renderers).reverse
  /-- A renderer that was created is held or was destroyed. -/
  renderers : ∀ o r, h.host.log.created.count (o, r)
    = h.host.log.destroyed.count (o, r) + (h.renderers o).toList.count r
  /-- The renderers destroyed are those released. -/
  released : h.host.log.released = h.host.log.destroyed.map Prod.fst

/-- No renderer is created twice. -/
theorem Balanced.nodup_created {h : Holdings} (hb : h.Balanced) :
  h.host.log.created.Nodup
  := by
  apply List.Nodup.of_map fun p => p.2.serial
  rw [hb.numbered, List.nodup_reverse]
  exact List.nodup_range'

/-- A transaction keeps the balance of the renderers. -/
theorem Balanced.after {h : Holdings} {x : Transaction} (hx : x.Allowed h) (hb : h.Balanced) :
  (x.after h).Balanced
  := by
  obtain ⟨hn, hr, hl⟩ := hb
  constructor
  · rw [Transaction.created_after hx, Transaction.renderers_log_after hx, List.map_append, hn]
    cases x with
    | create o r =>
      have hserial : r.serial = h.host.log.renderers + 1 := hx.2
      simp [Transaction.created, List.range'_concat, hserial, Nat.add_comm]
    | _ => rfl
  · intro o r
    have hcount := Transaction.count_renderers hx o r
    rw [Transaction.created_after hx, Transaction.destroyed_after hx, List.count_append,
      List.count_append, hr]
    omega
  · rw [Transaction.released_after hx, Transaction.destroyed_after hx, List.map_append, hl]

/-- Every texture ever uploaded is either held or was deleted, as often as it was
uploaded. -/
def TexturesBalanced (h : Holdings) : Prop :=
  ∀ o t, h.host.log.uploaded.count (o, t)
    = h.host.log.deleted.count (o, t) + (h.textures o).toList.count t

/-- A transaction that replaces no texture keeps the balance of the textures. -/
theorem TexturesBalanced.after {h : Holdings} {x : Transaction} (hx : x.Allowed h)
    (hr : ¬ x.Replaces) (hb : h.TexturesBalanced) :
  (x.after h).TexturesBalanced
  := by
  intro o t
  have hcount := Transaction.count_textures hx hr o t
  rw [Transaction.uploaded_after hx, Transaction.deleted_after hx, List.count_append,
    List.count_append, hb]
  omega

namespace Course

variable {h h' : Holdings} {xs : List Transaction}

theorem created_eq (hc : Course h xs h') :
  h'.host.log.created = (xs.flatMap Transaction.created).reverse ++ h.host.log.created
  := by
  induction hc with
  | nil => rfl
  | cons x hx _ ih =>
    have hone : x.created.reverse = x.created := by cases x <;> rfl
    rw [ih, Transaction.created_after hx, List.flatMap_cons, List.reverse_append, hone,
      List.append_assoc]

theorem destroyed_eq (hc : Course h xs h') :
  h'.host.log.destroyed = (xs.flatMap Transaction.destroyed).reverse ++ h.host.log.destroyed
  := by
  induction hc with
  | nil => rfl
  | cons x hx _ ih =>
    have hone : x.destroyed.reverse = x.destroyed := by cases x <;> rfl
    rw [ih, Transaction.destroyed_after hx, List.flatMap_cons, List.reverse_append, hone,
      List.append_assoc]

theorem host_eq (hc : Course h xs h') :
  h'.host = h.host.recordAll (xs.flatMap Transaction.events)
  := by
  induction hc with
  | nil => rfl
  | cons x _ _ ih => rw [ih, Transaction.host_after, List.flatMap_cons, Host.recordAll_append]

theorem events_eq (hc : Course h xs h') :
  h'.host.log.events = (xs.flatMap Transaction.events).reverse ++ h.host.log.events
  := by
  rw [hc.host_eq, Host.events_recordAll]

theorem balanced (hc : Course h xs h') (hb : h.Balanced) :
  h'.Balanced
  := hc.invariant (fun _ _ => Balanced.after) hb

theorem texturesBalanced (hc : Course h xs h') (hx : ∀ x ∈ xs, ¬ x.Replaces)
    (hb : h.TexturesBalanced) :
  h'.TexturesBalanced
  := by
  induction hc with
  | nil => apply hb
  | cons x ha _ ih =>
    apply ih
    · intro x' hx'
      apply hx x' (List.mem_cons_of_mem _ hx')
    · apply hb.after ha (hx x List.mem_cons_self)

/-- A renderer that is held does not stay exactly when it is dismantled. -/
theorem dismantled_iff (hc : Course h xs h') (hb : h.Balanced) {o : ObjectId} {r : Renderer}
    (hr : h.renderers o = some r) :
  h'.renderers o ≠ some r ↔ ∃ t, .dismantle o r t ∈ xs
  := by
  have hb' := hc.balanced hb
  have hmem : (o, r) ∈ xs.flatMap Transaction.destroyed ↔ ∃ t, .dismantle o r t ∈ xs := by
    rw [List.mem_flatMap]
    constructor
    · rintro ⟨x, hx, hm⟩
      cases x with
      | dismantle o' r' t =>
        cases List.mem_singleton.1 hm
        use t, hx
      | _ => cases hm
    · rintro ⟨t, hx⟩
      use .dismantle o r t, hx, List.mem_singleton.2 rfl
  -- The renderer was created once, and it had not been destroyed before.
  have hbefore := hb.renderers o r
  have hafter := hb'.renderers o r
  have honce := List.nodup_iff_count_le_one.1 hb'.nodup_created (o, r)
  rw [hr, Option.toList_some, List.count_singleton_self] at hbefore
  rw [hc.created_eq, List.count_append, List.count_reverse, hbefore] at honce hafter
  rw [hc.destroyed_eq, List.count_append, List.count_reverse] at hafter
  rw [← hmem, ← List.count_pos_iff]
  constructor
  · intro hne
    have hzero : (h'.renderers o).toList.count r = 0 := by
      apply List.count_eq_zero_of_not_mem
      rw [Option.mem_toList]
      apply hne
    omega
  · intro hpos heq
    rw [heq, Option.toList_some, List.count_singleton_self] at hafter
    omega

/-- A theme leaves only when the renderer of its object is dismantled. -/
theorem theme_of_not_dismantled (hc : Course h xs h') {o : ObjectId}
    (hx : ∀ r t, .dismantle o r t ∉ xs) (hth : h.themes o ≠ none) :
  h'.themes o ≠ none
  := by
  induction hc with
  | nil => apply hth
  | cons x _ _ ih =>
    apply ih
    · intro r t hm
      apply hx r t (List.mem_cons_of_mem _ hm)
    · cases x with
      | dismantle o' r t =>
        have ho : o' ≠ o := by
          rintro rfl
          apply hx r t List.mem_cons_self
        simpa [Transaction.after, Function.update_apply, Ne.symm ho] using hth
      | dress o' t =>
        by_cases ho : o = o'
        · subst ho
          simp [Transaction.after]
        · simpa [Transaction.after, Function.update_apply, ho] using hth
      | upload o' t => cases t <;> apply hth
      | replace o' t => cases t <;> apply hth
      | _ => apply hth

end Course

end Holdings

end FrameCache
