import FrameCache.Proofs.DurationReading
import Mathlib.Algebra.Order.Floor.Semifield
import Mathlib.Data.Nat.Digits.Lemmas
import Mathlib.Data.Rat.Floor
import Mathlib.Tactic.FieldSimp
import Mathlib.Tactic.Positivity
import Mathlib.Tactic.Ring

/-!
# Exact values

`Numeral.value` is a number read as an exact decimal, and `Quantity.exact` is the value of a
term rounded down once.  What is counted for a term is rounded down at every digit after the
point; `Quantity.lost` is the difference.

The place value of a digit is rounded down by the digits of the unit below it, so what is lost
is less than the digit sum of the unit.  That is 1 for the units that are powers of ten, 6 for
minutes and 9 for hours.
-/

namespace FrameCache.Duration

/-- The value of digits after a point. -/
def decimalValue (ds : List Char) : ℚ := Nat.ofDigitChars 10 ds 0 / 10 ^ ds.length

/-- The exact value of a number. -/
def Numeral.value (n : Numeral) : ℚ :=
  Nat.ofDigitChars 10 (n.whole ++ n.decimals) 0 / 10 ^ n.decimals.length

namespace Quantity

/-- The nanoseconds of a term, rounded down. -/
def exact (q : Quantity) : ℕ := ⌊q.numeral.value * q.scale⌋₊

/-- The nanoseconds of some terms, each rounded down. -/
def exactTotal (qs : List Quantity) : ℕ := (qs.map exact).sum

/-- What is lost of a term when it is counted digit by digit. -/
def lost (q : Quantity) : ℚ := q.numeral.value * q.scale - q.counted

end Quantity

/-! ### Digits after a point -/

theorem decimalValue_cons (d : Char) (ds : List Char) :
  decimalValue (d :: ds) = ((d.toNat - '0'.toNat : ℕ) + decimalValue ds) / 10
  := by
  rw [decimalValue, decimalValue, Nat.ofDigitChars_cons, Nat.ofDigitChars_eq_ofDigitChars_zero,
    List.length_cons, pow_succ]
  push_cast
  field_simp
  ring

theorem decimalValue_nonneg (ds : List Char) :
  0 ≤ decimalValue ds
  := by
  rw [decimalValue]
  positivity

theorem decimalValue_lt_one {ds : List Char} (hds : ∀ c ∈ ds, c.isDigit = true) :
  decimalValue ds < 1
  := by
  have h := ofDigitChars_lt hds 0
  rw [Nat.zero_add, Nat.one_mul] at h
  rw [decimalValue, div_lt_one (by positivity)]
  exact_mod_cast h

theorem Numeral.value_eq (n : Numeral) :
  n.value = Nat.ofDigitChars 10 n.whole 0 + decimalValue n.decimals
  := by
  rw [value, decimalValue, Nat.ofDigitChars_append, Nat.ofDigitChars_eq_ofDigitChars_zero]
  push_cast
  field_simp

theorem fractionNanos_zero (ds : List Char) :
  fractionNanos 0 ds = 0
  := by
  cases ds with
  | nil => rfl
  | cons d ds => rfl

/-- Each digit is counted at its place, also where nothing is counted any more. -/
theorem fractionNanos_cons (place : ℕ) (d : Char) (ds : List Char) :
  fractionNanos place (d :: ds)
    = (d.toNat - '0'.toNat) * (place / 10) + fractionNanos (place / 10) ds
  := by
  rw [fractionNanos]
  split
  · rename_i h
    rw [h, fractionNanos_zero]
    omega
  · rfl

/-- What is lost of the digits `ds` after a point when they are counted at the place values
below `place`. -/
def lostBelow (place : ℕ) (ds : List Char) : ℚ := decimalValue ds * place - fractionNanos place ds

theorem lostBelow_nil (place : ℕ) :
  lostBelow place [] = 0
  := by
  simp [lostBelow, decimalValue, fractionNanos]

theorem lostBelow_zero (ds : List Char) :
  lostBelow 0 ds = 0
  := by
  simp [lostBelow, fractionNanos_zero]

/-- The digits of the place value that are rounded off are lost for all digits from there on. -/
theorem lostBelow_cons (place : ℕ) (d : Char) (ds : List Char) :
  lostBelow place (d :: ds)
    = decimalValue (d :: ds) * (place % 10 : ℕ) + lostBelow (place / 10) ds
  := by
  have hplace : (place : ℚ) = 10 * (place / 10 : ℕ) + (place % 10 : ℕ) := by
    exact_mod_cast (Nat.div_add_mod place 10).symm
  have hvalue : decimalValue ds = 10 * decimalValue (d :: ds) - (d.toNat - '0'.toNat : ℕ) := by
    rw [decimalValue_cons]
    ring
  rw [lostBelow, lostBelow, fractionNanos_cons, hvalue]
  nth_rewrite 1 [hplace]
  push_cast
  ring

theorem lostBelow_nonneg (place : ℕ) (ds : List Char) :
  0 ≤ lostBelow place ds
  := by
  induction ds generalizing place with
  | nil => rw [lostBelow_nil]
  | cons d ds ih =>
    have hvalue := decimalValue_nonneg (d :: ds)
    have hih := ih (place / 10)
    rw [lostBelow_cons]
    positivity

theorem digits_sum_pos {n : ℕ} (hn : 0 < n) :
  0 < (Nat.digits 10 n).sum
  := by
  apply Nat.pos_of_ne_zero
  rw [Ne, List.sum_eq_zero_iff]
  intro hzero
  have hlast := Nat.getLast_digit_ne_zero 10 (Nat.pos_iff_ne_zero.1 hn)
  apply hlast (hzero _ (List.getLast_mem _))

/-- What is lost is less than the digit sum of the place value. -/
theorem lostBelow_lt {place : ℕ} (hplace : 0 < place) {ds : List Char}
    (hds : ∀ c ∈ ds, c.isDigit = true) :
  lostBelow place ds < ((Nat.digits 10 place).sum : ℕ)
  := by
  induction ds generalizing place with
  | nil =>
    rw [lostBelow_nil]
    apply Nat.cast_pos.2 (digits_sum_pos hplace)
  | cons d ds ih =>
    have hlt := decimalValue_lt_one hds
    have hdigits : Nat.digits 10 place = place % 10 :: Nat.digits 10 (place / 10) :=
      Nat.digits_def' (by decide) hplace
    rw [lostBelow_cons, hdigits, List.sum_cons, Nat.cast_add]
    by_cases hnext : 0 < place / 10
    · have hih := ih hnext fun c hc => hds c (List.mem_cons_of_mem _ hc)
      have hmod : decimalValue (d :: ds) * (place % 10 : ℕ) ≤ (place % 10 : ℕ) :=
        mul_le_of_le_one_left (Nat.cast_nonneg _) hlt.le
      exact add_lt_add_of_le_of_lt hmod hih
    · -- the place value is a single digit, and it is lost altogether
      have hzero : place / 10 = 0 := by omega
      have hpos : (0 : ℚ) < (place % 10 : ℕ) := by
        exact_mod_cast (by omega : 0 < place % 10)
      rw [hzero, lostBelow_zero, Nat.digits_zero, List.sum_nil, Nat.cast_zero]
      apply add_lt_add_left (mul_lt_of_lt_one_left hpos hlt)

/-- Nothing is lost as long as the place values are whole nanoseconds. -/
theorem lostBelow_eq_zero {place : ℕ} {ds : List Char} (h : 10 ^ ds.length ∣ place) :
  lostBelow place ds = 0
  := by
  induction ds generalizing place with
  | nil => apply lostBelow_nil
  | cons d ds ih =>
    obtain ⟨k, rfl⟩ := h
    have hmul : 10 ^ (d :: ds).length * k = 10 * (10 ^ ds.length * k) := by
      rw [List.length_cons, Nat.pow_succ', Nat.mul_assoc]
    rw [lostBelow_cons, hmul, Nat.mul_mod_right, Nat.mul_div_cancel_left _ (by decide),
      ih (Nat.dvd_mul_right _ _)]
    simp

/-! ### Terms -/

namespace Quantity

variable (q : Quantity)

theorem lost_eq :
  q.lost = lostBelow q.scale q.numeral.decimals
  := by
  rw [lost, lostBelow, counted, whole, Numeral.value_eq]
  push_cast
  ring

theorem lost_nonneg :
  0 ≤ q.lost
  := by
  rw [lost_eq]
  apply lostBelow_nonneg

theorem lost_lt :
  q.lost < 9
  := by
  have hall : ∀ p ∈ spellings, (Nat.digits 10 p.2).sum ≤ 9 := by decide +kernel
  have hsum : (Nat.digits 10 q.scale).sum ≤ 9 := hall _ q.spells
  have hlt := lostBelow_lt q.scale_pos q.numeral.isDigit_decimals
  rw [lost_eq]
  apply lt_of_lt_of_le hlt
  exact_mod_cast hsum

/-- Less than a nanosecond is lost when one of the unit is a power of ten, or when all digits
after the point are worth whole nanoseconds. -/
theorem lost_lt_one (h : q.scale ∣ 10 ^ 9 ∨ 10 ^ q.numeral.decimals.length ∣ q.scale) :
  q.lost < 1
  := by
  rw [lost_eq]
  rcases h with h | h
  · have hall : ∀ p ∈ spellings, p.2 ∣ 10 ^ 9 → (Nat.digits 10 p.2).sum = 1 := by
      decide +kernel
    have hlt := lostBelow_lt q.scale_pos q.numeral.isDigit_decimals
    rw [hall _ q.spells h, Nat.cast_one] at hlt
    apply hlt
  · rw [lostBelow_eq_zero h]
    apply zero_lt_one

/-- The value is what is counted and the whole nanoseconds that are lost. -/
theorem exact_eq :
  q.exact = q.counted + ⌊q.lost⌋₊
  := by
  have hvalue : q.numeral.value * q.scale = q.lost + q.counted := by
    rw [lost]
    ring
  rw [exact, hvalue, Nat.floor_add_natCast q.lost_nonneg, Nat.add_comm]

theorem exact_eq_div :
  q.exact = Nat.ofDigitChars 10 (q.numeral.whole ++ q.numeral.decimals) 0 * q.scale
    / 10 ^ q.numeral.decimals.length
  := by
  rw [exact, Numeral.value, div_mul_eq_mul_div]
  exact_mod_cast Nat.floor_div_eq_div (K := ℚ) _ _

theorem counted_le_exact :
  q.counted ≤ q.exact
  := by
  rw [exact_eq]
  apply Nat.le_add_right

theorem exact_le :
  q.exact ≤ q.counted + 8
  := by
  have hfloor : ⌊q.lost⌋₊ < 9 := by
    rw [Nat.floor_lt q.lost_nonneg]
    exact_mod_cast q.lost_lt
  rw [exact_eq]
  omega

theorem exact_eq_counted_iff :
  q.exact = q.counted ↔ q.lost < 1
  := by
  rw [exact_eq, Nat.add_eq_left, Nat.floor_eq_zero]

/-! ### Runs of terms -/

theorem exactTotal_cons (qs : List Quantity) :
  exactTotal (q :: qs) = q.exact + exactTotal qs
  := by
  rw [exactTotal, List.map_cons, List.sum_cons]
  rfl

variable (qs : List Quantity)

theorem total_le_exactTotal :
  total qs ≤ exactTotal qs
  := List.sum_le_sum fun q _ => q.counted_le_exact

theorem exactTotal_le :
  exactTotal qs ≤ total qs + 8 * qs.length
  := by
  induction qs with
  | nil => apply Nat.zero_le
  | cons q qs ih =>
    have hq := q.exact_le
    rw [exactTotal_cons, total_cons, List.length_cons]
    omega

/-- Terms are counted exactly when of none of them a whole nanosecond is lost. -/
theorem total_eq_exactTotal_iff :
  total qs = exactTotal qs ↔ ∀ q ∈ qs, q.lost < 1
  := by
  induction qs with
  | nil => simp [total, exactTotal]
  | cons q qs ih =>
    have hq := q.counted_le_exact
    have hqs := total_le_exactTotal qs
    rw [exactTotal_cons, total_cons, List.forall_mem_cons, ← q.exact_eq_counted_iff, ← ih]
    omega

end Quantity

end FrameCache.Duration
