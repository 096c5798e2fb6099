import FrameCache.Proofs.Transactions

/-!
# Readings of the clock

The log of a host keeps readings of the clock: the end of every call, and the instant to which
the animations are moved.  The log is early if none of them is the last instant there is, and
steady if they never decrease either.  Calls only extend a log, so what is early or steady has
always been so.
-/

namespace FrameCache

/-- The readings of the clock during a call, the latest first. -/
def Call.readings (c : Call) : List Instant :=
  match c.event with
  | .animated now => [c.ended, now]
  | _ => [c.ended]

namespace Log

/-- The readings of the clock so far, the latest first. -/
def readings (l : Log) : List Instant := l.calls.flatMap Call.readings

/-- The clock has not come to the last instant. -/
def Early (l : Log) : Prop := ∀ t ∈ l.readings, t.nanos < horizon

instance (l : Log) : Decidable l.Early :=
  inferInstanceAs (Decidable (∀ t ∈ l.readings, t.nanos < horizon))

/-- The clock has neither gone back nor come to the last instant. -/
structure Steady (l : Log) : Prop where
  /-- It has not come to the last instant. -/
  early : l.Early
  /-- It has not gone back. -/
  forward : l.readings.Pairwise fun later earlier => earlier ≤ later

instance (l : Log) : Decidable l.Steady :=
  decidable_of_iff (l.Early ∧ l.readings.Pairwise fun later earlier => earlier ≤ later)
    ⟨fun h => ⟨h.1, h.2⟩, fun h => ⟨h.early, h.forward⟩⟩

/-- The log `l'` has all calls of `l` and perhaps later ones. -/
def Extends (l l' : Log) : Prop := ∃ calls, l'.calls = calls ++ l.calls

namespace Extends

variable {l l' l'' : Log}

theorem refl (l : Log) :
  Extends l l
  := ⟨[], rfl⟩

theorem trans (h : Extends l l') (h' : Extends l' l'') :
  Extends l l''
  := by
  obtain ⟨cs, hcs⟩ := h
  obtain ⟨cs', hcs'⟩ := h'
  use cs' ++ cs
  rw [hcs', hcs, List.append_assoc]

theorem events (h : Extends l l') :
  ∃ new, l'.events = new ++ l.events
  := by
  obtain ⟨calls, hcalls⟩ := h
  use calls.map Call.event
  rw [Log.events, hcalls, List.map_append]
  rfl

theorem readings (h : Extends l l') :
  ∃ ts, l'.readings = ts ++ l.readings
  := by
  obtain ⟨cs, hcs⟩ := h
  use cs.flatMap Call.readings
  rw [Log.readings, hcs, List.flatMap_append]
  rfl

theorem mem_readings (h : Extends l l') {t : Instant} (ht : t ∈ l.readings) :
  t ∈ l'.readings
  := by
  obtain ⟨ts, hts⟩ := h.readings
  rw [hts]
  apply List.mem_append_right _ ht

theorem early (h : Extends l l') (he : l'.Early) :
  l.Early
  := by
  intro t ht
  apply he t (h.mem_readings ht)

theorem steady (h : Extends l l') (hs : l'.Steady) :
  l.Steady
  := by
  obtain ⟨ts, hts⟩ := h.readings
  use h.early hs.early
  have hforward := hs.forward
  rw [hts, List.pairwise_append] at hforward
  apply hforward.2.1

end Extends

end Log

namespace Host

/-- The last reading on record is what the clock shows. -/
def Fresh (h : Host) : Prop := h.log.readings.head? = some h.now

theorem fresh_record (h : Host) (e : Event) :
  (h.record e).Fresh
  := by
  cases e <;> rfl

theorem extends_record (h : Host) (e : Event) :
  Log.Extends h.log (h.record e).log
  := ⟨[⟨e, (h.record e).now⟩], rfl⟩

theorem Fresh.recordAll {h : Host} (hf : h.Fresh) (es : List Event) :
  (h.recordAll es).Fresh
  := by
  apply List.foldlRecOn (motive := Fresh) es _ hf
  intro h' _ e _
  apply fresh_record

theorem extends_recordAll (h : Host) (es : List Event) :
  Log.Extends h.log (h.recordAll es).log
  := by
  apply List.foldlRecOn (motive := fun h' : Host => Log.Extends h.log h'.log) es
  · apply Log.Extends.refl
  · intro h' hh e _
    apply hh.trans (extends_record h' e)

theorem Fresh.mem {h : Host} (hf : h.Fresh) :
  h.now ∈ h.log.readings
  := List.mem_of_head? hf

/-- A clock that is on record shows the latest of all readings. -/
theorem Fresh.le_now {h : Host} (hf : h.Fresh) (hs : h.log.Steady) {t : Instant}
    (ht : t ∈ h.log.readings) :
  t ≤ h.now
  := by
  have hforward := hs.forward
  obtain ⟨ts, hts⟩ := List.head?_eq_some_iff.1 hf
  rw [hts] at hforward ht
  rcases List.mem_cons.1 ht with rfl | ht
  · apply Nat.le_refl
  · apply (List.pairwise_cons.1 hforward).1 t ht

/-- A clock comes to the last instant only on record. -/
theorem now_recordAll_lt {h : Host} (hnow : h.now.nanos < horizon) {es : List Event}
    (hearly : (h.recordAll es).log.Early) :
  (h.recordAll es).now.nanos < horizon
  := by
  obtain rfl | ⟨es, e, rfl⟩ := es.eq_nil_or_concat'
  · apply hnow
  · have hrecord : h.recordAll (es ++ [e]) = (h.recordAll es).record e := by
      rw [recordAll_append]
      rfl
    rw [hrecord] at hearly ⊢
    apply hearly _ (fresh_record _ e).mem

/-- The clock moves only during calls, so what it shows is where it was or the end of a call. -/
theorem now_of_calls {P : Instant → Prop} {h : Host} (hnow : P h.now) {es : List Event}
    {new : List Call} (hnew : (h.recordAll es).log.calls = new ++ h.log.calls)
    (hended : ∀ call ∈ new, P call.ended) :
  P (h.recordAll es).now
  := by
  obtain rfl | ⟨es, e, rfl⟩ := es.eq_nil_or_concat'
  · apply hnow
  · have hrecord : h.recordAll (es ++ [e]) = (h.recordAll es).record e := by
      rw [recordAll_append]
      rfl
    obtain ⟨earlier, hearlier⟩ := extends_recordAll h es
    rw [hrecord] at hnew ⊢
    change ⟨e, _⟩ :: (h.recordAll es).log.calls = _ at hnew
    rw [hearlier, ← List.cons_append, List.append_cancel_right_eq] at hnew
    apply hended ⟨e, ((h.recordAll es).record e).now⟩
    rw [← hnew]
    exact List.mem_cons_self

/-- A clock comes to the last instant only at the end of a call. -/
theorem now_lt_of_calls {h : Host} (hnow : h.now.nanos < horizon) {es : List Event}
    {new : List Call} (hnew : (h.recordAll es).log.calls = new ++ h.log.calls)
    (hended : ∀ call ∈ new, call.ended.nanos < horizon) :
  (h.recordAll es).now.nanos < horizon
  := now_of_calls (P := fun t => t.nanos < horizon) hnow hnew hended

end Host

namespace Studio

variable {s s' : Studio} {P : Studio → Act → Prop}

/-- Acts only extend the log. -/
theorem Course.extends_log (h : Course P s s') :
  Log.Extends s.host.log s'.host.log
  := by
  obtain ⟨es, he⟩ := h.exists_calls
  rw [he]
  apply Host.extends_recordAll

theorem Course.fresh (h : Course P s s') (hf : s.host.Fresh) :
  s'.host.Fresh
  := by
  obtain ⟨es, he⟩ := h.exists_calls
  rw [he]
  apply hf.recordAll

end Studio

end FrameCache
