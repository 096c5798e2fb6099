import FrameCache.Proofs.DurationBlame
import FrameCache.Proofs.DurationValue

/-!
# Exactness of durations

`Duration.parse` reads a text of the grammar as what is counted for its terms, which is at most
the exact value and falls short of it by up to eight nanoseconds a term.  It is the exact value
just when of no term a whole nanosecond is lost, and that is so for all units but the minute and
the hour, and for these too as long as all digits after the point are worth whole nanoseconds.

A text whose exact value is beyond the horizon is called too long when what is counted for it is
beyond the horizon too, unless the whole part of a term does not fit in a word: that is called
an invalid number.
-/

namespace FrameCache.Duration

open Quantity (textOf total exactTotal)

variable {input : String} {qs : List Quantity}

/-! ### Values within the horizon -/

theorem parse_of_total_le (hw : Writes (body input) qs) (h : total qs ≤ horizon) :
  parse input = .ok ⟨total qs⟩
  := by
  have hword : total qs < wordSize := Nat.lt_of_le_of_lt h (by decide)
  rw [parse_of_writes hw, hw.parseUnsigned_eq hword, if_neg (Nat.not_lt.2 h)]
  rfl

/-- A text whose exact value is within the horizon is read as what is counted for its terms.
That is the exact value just when of no term a whole nanosecond is lost. -/
theorem parse_of_exactTotal_le (hw : Writes (body input) qs) (h : exactTotal qs ≤ horizon) :
  parse input = .ok ⟨total qs⟩
    ∧ total qs ≤ exactTotal qs ∧ exactTotal qs ≤ total qs + 8 * qs.length
    ∧ (total qs = exactTotal qs ↔ ∀ q ∈ qs, q.lost < 1)
    ∧ ((∀ q ∈ qs, q.scale ∣ 10 ^ 9 ∨ 10 ^ q.numeral.decimals.length ∣ q.scale) →
      total qs = exactTotal qs)
  := by
  have hle := Quantity.total_le_exactTotal qs
  use parse_of_total_le hw (Nat.le_trans hle h), hle, Quantity.exactTotal_le qs,
    Quantity.total_eq_exactTotal_iff qs
  intro hqs
  rw [Quantity.total_eq_exactTotal_iff]
  intro q hq
  apply q.lost_lt_one (hqs q hq)

/-- An hour and a half are read exactly, and of seconds what is below a nanosecond is dropped. -/
theorem parse_of_exactTotal_le_compound :
  ∃ qs, Writes (body " +1.5h0.9999999999s") qs ∧ exactTotal qs = 5400999999999
    ∧ parse " +1.5h0.9999999999s" = .ok ⟨5400999999999⟩
  := by
  let hours : Quantity :=
    ⟨⟨['1'], some ['5'], List.all_eq_true.1 (by decide), by decide⟩, "h", 3600000000000,
      by decide⟩
  let seconds : Quantity :=
    ⟨⟨['0'], some "9999999999".toList, List.all_eq_true.1 (by decide), by decide⟩, "s",
      1000000000, by decide⟩
  have hw : Writes (body " +1.5h0.9999999999s") [hours, seconds] := by
    have htext : body " +1.5h0.9999999999s" = textOf [hours, seconds] := by decide +kernel
    rw [htext]
    apply Writes.terms
  have hexact : exactTotal [hours, seconds] = 5400999999999 := by
    simp only [Quantity.exactTotal_cons, Quantity.exact_eq_div]
    decide +kernel
  have hle : exactTotal [hours, seconds] ≤ horizon := by
    rw [hexact]
    decide
  have hunits : ∀ q ∈ [hours, seconds],
      q.scale ∣ 10 ^ 9 ∨ 10 ^ q.numeral.decimals.length ∣ q.scale := by
    decide +kernel
  obtain ⟨hparse, -, -, -, heq⟩ := parse_of_exactTotal_le hw hle
  use [hours, seconds], hw, hexact
  rw [hparse, heq hunits, hexact]

/-- The place values of hours are rounded down, and the nanoseconds of many fractions of an hour
with them. -/
theorem parse_loses_nanoseconds :
  ∃ qs, Writes (body "0.000000000009h") qs ∧ exactTotal qs = 32
    ∧ parse "0.000000000009h" = .ok ⟨27⟩
  := by
  let hours : Quantity :=
    ⟨⟨['0'], some "000000000009".toList, List.all_eq_true.1 (by decide), by decide⟩, "h",
      3600000000000, by decide⟩
  have htext : body "0.000000000009h" = textOf [hours] := by decide +kernel
  have hexact : exactTotal [hours] = 32 := by
    simp only [Quantity.exactTotal_cons, Quantity.exact_eq_div]
    decide +kernel
  refine ⟨[hours], ?_, hexact, by decide +kernel⟩
  rw [htext]
  apply Writes.terms

/-! ### Values beyond the horizon -/

/-- The whole parts of terms fit in words, as far as the terms before them do. -/
def WholesFit (qs : List Quantity) : Prop :=
  ∀ ps q rs, qs = ps ++ q :: rs → total ps < wordSize → q.whole < wordSize

/-- Terms beyond the horizon whose whole parts fit are too long. -/
theorem WholesFit.tooLong (h : WholesFit qs) (hlong : horizon < total qs) :
  TooLong qs .overflow
  := by
  rcases total_lt_or_tooLong qs with hword | ⟨ps, q, rs, f, hqs, hbefore, hf⟩
  · exact .result hword hlong
  · have hwhole := h ps q rs hqs hbefore
    cases hf with
    | whole hf => exact absurd hwhole (Nat.not_lt.2 hf)
    | product hw hf => exact .term hqs hbefore (.product hw hf)
    | sum hp hf => exact .term hqs hbefore (.sum hp hf)

/-- A whole part that does not fit is refused as a number. -/
theorem tooLong_of_not_wholesFit (h : ¬ WholesFit qs) :
  TooLong qs .invalidNumber
  := by
  simp only [WholesFit, not_forall, Nat.not_lt] at h
  obtain ⟨ps, q, rs, hqs, hbefore, hwhole⟩ := h
  exact .term hqs hbefore (.whole hwhole)

theorem parse_of_tooLong {f : Fault} (hw : Writes (body input) qs)
    (hfit : FractionsFit 0 (body input)) (h : TooLong qs f) :
  parse input = .error ⟨f, input⟩
  := by
  rw [parse_of_writes hw, h.parseUnsigned_eq hw hfit]
  rfl

/-- A text whose exact value is beyond the horizon is called too long if what is counted for it
is beyond the horizon and the whole parts of its terms fit in words.  If a whole part does not
fit it is called an invalid number, and only a text that loses its nanoseconds beyond the
horizon, less than nine in a term, is accepted. -/
theorem parse_of_lt_exactTotal (hw : Writes (body input) qs) (hfit : FractionsFit 0 (body input))
    (h : horizon < exactTotal qs) :
  (horizon < total qs → WholesFit qs → parse input = .error ⟨.overflow, input⟩)
    ∧ (¬ WholesFit qs → parse input = .error ⟨.invalidNumber, input⟩)
    ∧ (total qs ≤ horizon → parse input = .ok ⟨total qs⟩
      ∧ exactTotal qs ≤ horizon + 8 * qs.length ∧ ∃ q ∈ qs, 1 ≤ q.lost)
  := by
  refine ⟨?_, ?_, ?_⟩
  · intro hlong hwholes
    apply parse_of_tooLong hw hfit (hwholes.tooLong hlong)
  · intro hwholes
    apply parse_of_tooLong hw hfit (tooLong_of_not_wholesFit hwholes)
  · intro hle
    have hlost := Quantity.exactTotal_le qs
    use parse_of_total_le hw hle, by omega
    have hne : total qs ≠ exactTotal qs := by omega
    rw [Ne, Quantity.total_eq_exactTotal_iff] at hne
    simpa using hne

/-- One nanosecond more than a clock can be asked for is too long. -/
theorem parse_of_lt_exactTotal_horizon :
  ∃ qs, Writes (body "18446744073709551616ns") qs ∧ horizon < exactTotal qs
    ∧ parse "18446744073709551616ns" = .error ⟨.overflow, "18446744073709551616ns"⟩
  := by
  let nanos : Quantity :=
    ⟨⟨"18446744073709551616".toList, none, List.all_eq_true.1 (by decide), by decide⟩, "ns", 1,
      by decide⟩
  have hw : Writes (body "18446744073709551616ns") [nanos] := by
    have htext : body "18446744073709551616ns" = textOf [nanos] := by decide +kernel
    rw [htext]
    apply Writes.terms
  have hfit : FractionsFit 0 (body "18446744073709551616ns") :=
    fractionsFit_of_length_le (by decide +kernel) 0
  have htotal : total [nanos] = 18446744073709551616 := by decide +kernel
  have hlong : horizon < total [nanos] := by
    rw [htotal]
    decide
  have hexact : horizon < exactTotal [nanos] :=
    Nat.lt_of_lt_of_le hlong (Quantity.total_le_exactTotal _)
  have hwholes : WholesFit [nanos] := by
    intro ps q rs hqs _
    have hq : q ∈ [nanos] := by
      rw [hqs]
      simp
    rw [List.mem_singleton.1 hq]
    decide +kernel
  use [nanos], hw, hexact
  apply (parse_of_lt_exactTotal hw hfit hexact).1 hlong hwholes

/-- A text of one term is beyond the horizon if what is counted for the term is. -/
theorem exists_writes_of_total {q : Quantity} (htext : body input = textOf [q])
    (hlong : horizon < total [q]) :
  ∃ qs, Writes (body input) qs ∧ horizon < exactTotal qs
  := by
  refine ⟨[q], ?_, Nat.lt_of_lt_of_le hlong (Quantity.total_le_exactTotal _)⟩
  rw [htext]
  apply Writes.terms

/-- A number of nanoseconds that does not fit in a word is not called too long.  Neither is a number
of seconds that fits but for its fraction: what is beyond a word is lost, and the rest accepted. -/
theorem parse_word_not_overflow :
  (∃ qs, Writes (body "340282366920938463463374607431768211456ns") qs ∧ horizon < exactTotal qs)
    ∧ parse "340282366920938463463374607431768211456ns"
      = .error ⟨.invalidNumber, "340282366920938463463374607431768211456ns"⟩
    ∧ (∃ qs, Writes (body "340282366920938463463374607431.9s") qs ∧ horizon < exactTotal qs)
    ∧ parse "340282366920938463463374607431.9s" = .ok ⟨131788544⟩
  := by
  let nanos : Quantity :=
    ⟨⟨"340282366920938463463374607431768211456".toList, none, List.all_eq_true.1 (by decide),
      by decide⟩, "ns", 1, by decide⟩
  let seconds : Quantity :=
    ⟨⟨"340282366920938463463374607431".toList, some "9".toList, List.all_eq_true.1 (by decide),
      by decide⟩, "s", 1000000000, by decide⟩
  have hnanos : body "340282366920938463463374607431768211456ns" = textOf [nanos] := by
    decide +kernel
  have hseconds : body "340282366920938463463374607431.9s" = textOf [seconds] := by
    decide +kernel
  exact ⟨exists_writes_of_total hnanos (by decide +kernel), by decide +kernel,
    exists_writes_of_total hseconds (by decide +kernel), by decide +kernel⟩

end FrameCache.Duration
