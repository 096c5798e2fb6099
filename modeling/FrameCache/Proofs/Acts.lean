import FrameCache.Proofs.Holdings
import FrameCache.Proofs.Visitors

/-!
# The acts of a studio

An `Act` is a smallest step of a studio: it changes one of the caches, or gives back a
renderer with all that belongs to it, or calls the host.  A `Course` is a sequence of acts.
Every operation of a studio is a course of acts of a certain kind, so what single acts
preserve is preserved by all operations.
-/

namespace FrameCache

namespace Studio

/-- A smallest step of a studio. -/
inductive Act where
  | call (e : Event)
  | keepValues (texts : Cache TextKey TextMetric) (icons : Cache IconKey IconRaster)
  | present (canvases : List CanvasId)
  | plan (schedule : SweepSchedule)
  | canvasOf (o : ObjectId)
  | mount (o : ObjectId) (m : Mounting)
  | touch (o : ObjectId)
  | unmount (o : ObjectId) (cause : Cause) (accept : Entry Mounting → Bool)
  | findRenderer (o : ObjectId)
  | create (o : ObjectId)
  | dismantle (o : ObjectId) (expiredAt : Option Instant)
  | texture (o : ObjectId)
  | dropTexture (o : ObjectId)
  | setTheme (o : ObjectId) (t : WidgetTheme)
  | themeOf (o : ObjectId)

namespace Act

/-- The studio after an act. -/
def run (s : Studio) : Act → Studio
  | .call e => s.record e
  | .keepValues texts icons => { s with inventory.texts := texts, inventory.icons := icons }
  | .present canvases => { s with inventory.registered := canvases }
  | .plan schedule => { s with inventory.schedule := schedule }
  | .canvasOf o => (s.query fun i now => i.canvasOf o now).2
  | .mount o m => s.update fun i now => i.mount o m now
  | .touch o => (s.query fun i now => i.touch o now).2
  | .unmount o cause accept =>
    { s with inventory.mountings := (s.inventory.mountings.takeIf o cause accept).2 }
  | .findRenderer o => (s.query fun i now => i.findRenderer o now).2
  | .create o => s.create o
  | .dismantle o expiredAt => (s.dismantle o expiredAt).2
  | .texture o => (s.texture o).2
  | .dropTexture o => (s.dropTexture o).2
  | .setTheme o t => s.update fun i now => i.setTheme o t now
  | .themeOf o => (s.query fun i now => i.themeOf o now).2

/-- Resources are called for by the acts that keep account of them, and a renderer is only
created where there is none. -/
def Allowed (s : Studio) : Act → Prop
  | .call e => e.IsPlain
  | .create o => s.renderer? o = none
  | _ => True

end Act

/-- The studio `s'` is reached from `s` by acts that satisfy `P`. -/
inductive Course (P : Studio → Act → Prop) : Studio → Studio → Prop where
  | nil (s : Studio) : Course P s s
  | cons {s s' : Studio} (a : Act) (hp : P s a) (ha : a.Allowed s)
      (rest : Course P (a.run s) s') : Course P s s'

namespace Course

variable {P Q : Studio → Act → Prop} {s s' s'' : Studio}

theorem single (a : Act) (hp : P s a) (ha : a.Allowed s) :
  Course P s (a.run s)
  := .cons a hp ha (.nil _)

theorem append (h : Course P s s') (h' : Course P s' s'') :
  Course P s s''
  := by
  induction h with
  | nil => apply h'
  | cons a hp ha _ ih => apply cons a hp ha (ih h')

theorem mono (hPQ : ∀ s a, P s a → Q s a) (h : Course P s s') :
  Course Q s s'
  := by
  induction h with
  | nil => apply nil
  | cons a hp ha _ ih => apply cons a (hPQ _ a hp) ha ih

/-- What every act keeps is kept by a course. -/
theorem invariant {I : Studio → Prop}
    (hI : ∀ s a, P s a → a.Allowed s → I s → I (a.run s)) (h : Course P s s') (hs : I s) :
  I s'
  := by
  induction h with
  | nil => apply hs
  | cons a hp ha _ ih => apply ih (hI _ a hp ha hs)

theorem foldl {α : Type} {f : Studio → α → Studio} (hf : ∀ s a, Course P s (f s a))
    (l : List α) (s : Studio) :
  Course P s (l.foldl f s)
  := by
  apply List.foldlRecOn l f (nil s)
  intro s' h a _
  apply h.append (hf s' a)

end Course

/-! ### Drawing -/

/-- Drawing takes nothing away but textures, and renderers that have lapsed, and sets no theme. -/
def Act.Draws (s : Studio) : Act → Prop
  | .keepValues _ _ | .present _ | .plan _ | .unmount _ _ _ | .setTheme _ _ => False
  | .dismantle _ expiredAt => expiredAt = some s.now
  | _ => True

theorem course_dropTexture (s : Studio) (o : ObjectId) :
  Course Act.Draws s (s.dropTexture o).2
  := .single (.dropTexture o) trivial trivial

theorem course_record (s : Studio) {e : Event} (he : e.IsPlain) :
  Course Act.Draws s (s.record e)
  := .single (.call e) trivial he

/-- A renderer is looked up, or looked up in vain, dismantled and created. -/
theorem course_renderer (s : Studio) (o : ObjectId) :
  Course Act.Draws s (s.renderer o).2
  := by
  have hfind : Course Act.Draws s (s.query fun i now => i.findRenderer o now).2 :=
    .single (.findRenderer o) trivial trivial
  cases h : s.inventory.renderers.peek o s.now with
  | some r =>
    rw [renderer_of_live h]
    apply hfind
  | none =>
    rw [renderer_of_not_live h]
    apply hfind.append
    apply Course.cons (.dismantle o (some s.now)) rfl trivial
    apply Course.single (.create o) trivial
    apply renderer?_dismantle_of_not_live h

theorem course_provideRenderer (s : Studio) (n : Node) :
  Course Act.Draws s (s.provideRenderer n)
  := by
  rw [provideRenderer]
  split
  · apply course_renderer
  · apply Course.nil

theorem course_provideTexture (s : Studio) (n : Node) :
  Course Act.Draws s (s.provideTexture n).2
  := by
  rw [provideTexture]
  split
  · apply Course.single (.texture n.object) trivial trivial
  · apply Course.nil

theorem course_paintNode (c : CanvasId) (s : Studio) (n : Node × Position) :
  Course Act.Draws s (paintNode c s n)
  := by
  obtain ⟨n, p⟩ := n
  rw [paintNode_eq]
  apply Course.cons (.mount n.object ⟨c, n.kind⟩) trivial trivial
  apply (course_provideRenderer _ n).append
  apply (course_provideTexture _ n).append
  apply course_record
  trivial

theorem course_paintAll (s : Studio) (c : CanvasId) (nodes : List (Node × Position)) :
  Course Act.Draws s (s.paintAll c nodes).2
  := .foldl (course_paintNode c) nodes s

/-- A walk only renews. -/
theorem course_keepAlive (s : Studio) (nodes : List (Node × Position)) :
  Course Act.Draws s (s.keepAlive nodes).2
  := by
  rw [snd_keepAlive]
  apply Course.foldl
  intro s n
  apply Course.single (.touch n.1.object) trivial trivial

/-! ### Sweeping -/

/-- A sweep at `now` takes mountings and renderers away only if they have lapsed. -/
def Act.Sweeps (now : Instant) : Act → Prop
  | .keepValues _ _ | .plan _ | .dropTexture _ => True
  | .unmount _ _ accept => accept = Entry.lapsedBy (some now)
  | .dismantle _ expiredAt => expiredAt = some now
  | _ => False

theorem course_release (s : Studio) (o : ObjectId) (kind : ObjectKind) (now : Instant) :
  Course (fun _ => Act.Sweeps now) s (s.release o kind (some now)).2
  := by
  cases kind with
  | widget => apply Course.single (.dismantle o (some now)) rfl trivial
  | plain => apply Course.single (.dropTexture o) trivial trivial

theorem course_unmountIfExpired (now : Instant) (canvases : List CanvasId) (s : Studio)
    (e : ObjectId × Mounting) :
  Course (fun _ => Act.Sweeps now) s (unmountIfExpired now canvases s e)
  := by
  rw [unmountIfExpired]
  split
  · split
    · apply Course.nil
    · rename_i m mountings hm
      apply Course.cons (.unmount e.1 .expired (Entry.lapsedBy (some now))) rfl trivial
      have hr : (Act.unmount e.1 .expired (Entry.lapsedBy (some now))).run s
          = { s with inventory.mountings := mountings } := by
        change { s with inventory.mountings := (s.inventory.mountings.removeLapsed e.1 now).2 } = _
        rw [hm]
      rw [hr]
      apply course_release
  · apply Course.nil

theorem course_sweepObjects (s : Studio) (now : Instant) (canvases : List CanvasId) :
  Course (fun _ => Act.Sweeps now) s (s.sweepObjects now canvases).2
  := by
  rw [snd_sweepObjects]
  dsimp only
  rw [snd_unmountExpired, snd_dismantleExpired]
  apply (Course.foldl (course_unmountIfExpired now canvases) _ s).append
  apply Course.foldl
  intro s e
  apply Course.single (.dismantle e.1 (some now)) rfl trivial

theorem course_sweepValues (s : Studio) (now : Instant) :
  Course (fun _ => Act.Sweeps now) s (s.sweepValues now).2
  := by
  let texts := (s.inventory.texts.takeLapsed now).2
  let icons := (s.inventory.icons.takeLapsed now).2
  apply Course.single (.keepValues texts icons) trivial trivial

theorem course_sweep (s : Studio) (repainted : Bool) (refreshed : List CanvasId) :
  Course (fun _ => Act.Sweeps s.now) s (s.sweep repainted refreshed).2
  := by
  have hplanned : Course (fun _ => Act.Sweeps s.now) s (s.planned repainted refreshed) :=
    .single (.plan _) trivial trivial
  rw [snd_sweep]
  dsimp only
  generalize s.planned repainted refreshed = s' at hplanned ⊢
  split
  · apply hplanned
  · apply hplanned.append (course_sweepValues s' s.now)
  · apply hplanned.append
    apply (course_sweepValues s' s.now).append
    apply course_sweepObjects

/-! ### Tearing down -/

/-- Forgetting the canvas `c` unmounts its objects only. -/
def Act.Forgets (c : CanvasId) : Act → Prop
  | .present _ | .dismantle _ none | .dropTexture _ => True
  | .unmount _ _ accept => accept = fun e : Entry Mounting => decide (e.value.canvas = c)
  | _ => False

theorem course_forgetObject (c : CanvasId) (o : ObjectId) (m : Mounting) (w : Nat × Studio) :
  Course (fun _ => Act.Forgets c) w.2 (forgetObject c o m w).2.2
  := by
  obtain ⟨n, s⟩ := w
  rw [forgetObject]
  dsimp only
  split
  · apply Course.nil
  · rename_i m mountings hm
    apply Course.cons (.unmount o .explicit fun e => e.value.canvas = c) rfl trivial
    have hr : (Act.unmount o .explicit fun e => e.value.canvas = c).run s
        = { s with inventory.mountings := mountings } := by
      change { s with inventory.mountings :=
        (s.inventory.mountings.removeIf o fun m => m.canvas = c).2 } = _
      rw [hm]
    rw [hr]
    cases m.kind with
    | widget => apply Course.single (.dismantle o none) trivial trivial
    | plain => apply Course.single (.dropTexture o) trivial trivial

theorem course_forgetCanvas (s : Studio) (c : CanvasId) :
  Course (fun _ => Act.Forgets c) s (s.forgetCanvas c).2
  := by
  rw [forgetCanvas]
  apply Cache.visitAll_invariant (I := fun w : Nat × Studio =>
    Course (fun _ => Act.Forgets c) s w.2) (fst_forgetObject c)
  · intro o m w h
    apply h.append
    apply course_forgetObject
  · apply Course.single (.present (s.inventory.unregister c).registered) trivial trivial

end Studio

end FrameCache
