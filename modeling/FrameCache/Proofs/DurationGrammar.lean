import FrameCache.Duration.Text
import Mathlib.Algebra.Ring.Nat
import Mathlib.Data.List.Basic
import Mathlib.Data.List.TakeWhile

/-!
# The grammar of durations

A duration is written as a bare `0` or as a run of terms.  A `Numeral` is a number as it is
written, a `Quantity` is a numeral with one of the `spellings` of the units, and `Writes` is
the grammar.  `Quantity.counted` is what reading a term counts for it, in numbers of any size.

What `Duration.splitTerms` makes of a text are its maximal runs, so it takes a written run of
terms apart into these terms, whatever follows.  As long as the sum stays within a word,
`Duration.sumTerms` then adds up what is counted for them.
-/

namespace FrameCache.Duration

/-! ### Numbers and units -/

/-- A number as it is written: digits with at most one point among them. -/
structure Numeral where
  /-- The digits before the point. -/
  whole : List Char
  /-- The digits after the point, if there is a point. -/
  fraction : Option (List Char)
  /-- All of them are digits. -/
  isDigit : ∀ c ∈ whole ++ fraction.getD [], c.isDigit = true
  /-- There is a digit. -/
  ne_nil : whole ++ fraction.getD [] ≠ []

namespace Numeral

/-- The digits after the point. -/
def decimals (n : Numeral) : List Char := n.fraction.getD []

/-- The characters of a number. -/
def text (n : Numeral) : List Char := n.whole ++ n.fraction.elim [] ('.' :: ·)

end Numeral

/-- The spellings of the units, with the nanoseconds in one of each. -/
def spellings : List (String × Nat) :=
  [("ns", 1), ("us", 1000), ("µs", 1000), ("μs", 1000), ("ms", 1000000), ("s", 1000000000),
    ("m", 60000000000), ("h", 3600000000000)]

/-- A term as it is written: a number and the spelling of a unit. -/
structure Quantity where
  /-- The number. -/
  numeral : Numeral
  /-- The spelling of the unit. -/
  unit : String
  /-- The nanoseconds in one of the unit. -/
  scale : Nat
  /-- The unit is spelt so. -/
  spells : (unit, scale) ∈ spellings

namespace Quantity

/-- The characters of a term. -/
def text (q : Quantity) : List Char := q.numeral.text ++ q.unit.toList

/-- The whole part of the number. -/
def whole (q : Quantity) : Nat := Nat.ofDigitChars 10 q.numeral.whole 0

/-- The nanoseconds that are counted for a term, each digit after the point at a place value
of whole nanoseconds. -/
def counted (q : Quantity) : Nat :=
  q.whole * q.scale + fractionNanos q.scale q.numeral.decimals

/-- The characters of some terms, one term after the other. -/
def textOf (qs : List Quantity) : List Char := qs.flatMap text

/-- The nanoseconds that are counted for some terms. -/
def total (qs : List Quantity) : Nat := (qs.map counted).sum

theorem textOf_cons (q : Quantity) (qs : List Quantity) (rest : List Char) :
  textOf (q :: qs) ++ rest = q.text ++ (textOf qs ++ rest)
  := by
  rw [textOf, List.flatMap_cons, List.append_assoc]
  rfl

theorem total_cons (q : Quantity) (qs : List Quantity) :
  total (q :: qs) = q.counted + total qs
  := by
  rw [total, List.map_cons, List.sum_cons]
  rfl

theorem add_total_cons (n : Nat) (q : Quantity) (qs : List Quantity) :
  n + total (q :: qs) = n + q.counted + total qs
  := by
  rw [total_cons, Nat.add_assoc]

end Quantity

open Quantity (textOf total)

/-- The text `cs` writes the terms `qs`: a bare `0` none, any other text at least one. -/
inductive Writes : List Char → List Quantity → Prop where
  | zero : Writes ['0'] []
  | terms (q : Quantity) (qs : List Quantity) : Writes (textOf (q :: qs)) (q :: qs)

/-- A text without a leading plus sign. -/
def unsigned : List Char → List Char
  | '+' :: cs => cs
  | cs => cs

/-- The part of a text that the grammar is about: without outer blanks and one plus sign. -/
def body (input : String) : List Char := unsigned (Text.trim input.toList)

/-- A number ends before `rest`. -/
def EndsNumber (rest : List Char) : Prop := ∀ c ∈ rest.head?, isNumeric c = false

/-- A unit ends before `rest`: the text ends, or a number begins. -/
def EndsUnit (rest : List Char) : Prop := ∀ c ∈ rest.head?, isNumeric c = true

theorem endsUnit_nil :
  EndsUnit []
  := by
  intro c hc
  cases hc

theorem endsUnit_of_all {n rest : List Char} (hn : ∀ c ∈ n, isNumeric c = true) (hne : n ≠ []) :
  EndsUnit (n ++ rest)
  := by
  obtain ⟨d, n, rfl⟩ := List.exists_cons_of_ne_nil hne
  intro c hc
  cases hc
  apply hn _ List.mem_cons_self

theorem endsNumber_of_all {u rest : List Char} (hu : ∀ c ∈ u, isNumeric c = false)
    (hne : u ≠ []) :
  EndsNumber (u ++ rest)
  := by
  obtain ⟨d, u, rfl⟩ := List.exists_cons_of_ne_nil hne
  intro c hc
  cases hc
  apply hu _ List.mem_cons_self

/-! ### The characters of terms -/

theorem isNumeric_of_isDigit {c : Char} (h : c.isDigit = true) :
  isNumeric c = true
  := by
  rw [isNumeric, h]
  rfl

/-- The characters of numbers other than the point are digits. -/
theorem isDigit_of_isNumeric {c : Char} (h : isNumeric c = true) (hne : c ≠ '.') :
  c.isDigit = true
  := by
  rw [isNumeric, Bool.or_eq_true] at h
  apply h.resolve_right
  intro hp
  apply hne (LawfulBEq.eq_of_beq hp)

namespace Numeral

theorem isDigit_whole (n : Numeral) :
  ∀ c ∈ n.whole, c.isDigit = true
  := fun c hc => n.isDigit c (List.mem_append_left _ hc)

theorem isDigit_decimals (n : Numeral) :
  ∀ c ∈ n.decimals, c.isDigit = true
  := fun c hc => n.isDigit c (List.mem_append_right _ hc)

theorem text_eq (n : Numeral) :
  n.text = n.whole ∧ n.decimals = [] ∨ n.text = n.whole ++ '.' :: n.decimals
  := by
  obtain ⟨whole, fraction, -, -⟩ := n
  cases fraction with
  | none =>
    left
    exact ⟨List.append_nil whole, rfl⟩
  | some ds =>
    right
    rfl

theorem isNumeric_text (n : Numeral) :
  ∀ c ∈ n.text, isNumeric c = true
  := by
  intro c hc
  rcases n.text_eq with ⟨ht, -⟩ | ht
  · rw [ht] at hc
    apply isNumeric_of_isDigit (n.isDigit_whole c hc)
  · rw [ht, List.mem_append, List.mem_cons] at hc
    rcases hc with hc | rfl | hc
    · apply isNumeric_of_isDigit (n.isDigit_whole c hc)
    · rfl
    · apply isNumeric_of_isDigit (n.isDigit_decimals c hc)

theorem text_ne_nil (n : Numeral) :
  n.text ≠ []
  := by
  intro h
  apply n.ne_nil
  rcases n.text_eq with ⟨ht, hd⟩ | ht
  · rw [ht] at h
    rw [h]
    apply hd
  · rw [ht] at h
    cases (List.append_eq_nil_iff.1 h).2

end Numeral

theorem takeWhile_isDigit_text (n : Numeral) :
  n.text.takeWhile Char.isDigit = n.whole
  := by
  rcases n.text_eq with ⟨ht, -⟩ | ht
  · rw [ht, List.takeWhile_eq_self_iff]
    apply n.isDigit_whole
  · rw [ht, List.takeWhile_append_of_pos n.isDigit_whole, List.takeWhile_cons_of_neg (by decide),
      List.append_nil]

theorem decimals_eq (n : Numeral) :
  (n.text.dropWhile Char.isDigit).drop 1 = n.decimals
  := by
  rcases n.text_eq with ⟨ht, hd⟩ | ht
  · rw [ht, hd, List.dropWhile_eq_nil_iff.2 n.isDigit_whole]
    rfl
  · rw [ht, List.dropWhile_append_of_pos n.isDigit_whole, List.dropWhile_cons_of_neg (by decide)]
    rfl

theorem count_point_of_isDigit {ds : List Char} (h : ∀ c ∈ ds, c.isDigit = true) :
  ds.count '.' = 0
  := by
  apply List.count_eq_zero.2
  intro hm
  cases h '.' hm

theorem Numeral.count_point_text_le (n : Numeral) :
  n.text.count '.' ≤ 1
  := by
  rcases n.text_eq with ⟨ht, -⟩ | ht
  · rw [ht, count_point_of_isDigit n.isDigit_whole]
    apply Nat.zero_le
  · rw [ht, List.count_append, count_point_of_isDigit n.isDigit_whole, List.count_cons_self,
      count_point_of_isDigit n.isDigit_decimals]

theorem Numeral.exists_isDigit_text (n : Numeral) :
  ∃ d ∈ n.text, d.isDigit = true
  := by
  obtain ⟨d, hd⟩ := List.exists_mem_of_ne_nil _ n.ne_nil
  have hd' : d ∈ n.whole ∨ d ∈ n.decimals := List.mem_append.1 hd
  use d
  refine ⟨?_, n.isDigit d hd⟩
  rcases n.text_eq with ⟨ht, hnil⟩ | ht
  · rw [ht]
    apply hd'.resolve_right
    rw [hnil]
    apply List.not_mem_nil
  · rw [ht, List.mem_append, List.mem_cons]
    apply hd'.imp_right .inr

/-- Digits with at most one point, and at least one digit, are a numeral. -/
theorem exists_numeral {cs : List Char} (hcs : ∀ c ∈ cs, isNumeric c = true)
    (hdigit : ∃ d ∈ cs, d.isDigit = true) (hcount : cs.count '.' ≤ 1) :
  ∃ n : Numeral, n.text = cs
  := by
  have hdigits : ∀ ds : List Char, ds.count '.' = 0 → (∀ c ∈ ds, c ∈ cs) →
      ∀ c ∈ ds, c.isDigit = true := by
    intro ds hzero hsub c hc
    apply isDigit_of_isNumeric (hcs c (hsub c hc))
    rintro rfl
    apply List.count_eq_zero.1 hzero hc
  obtain ⟨d, hd, hdd⟩ := hdigit
  by_cases hp : '.' ∈ cs
  · obtain ⟨w, f, rfl⟩ := List.append_of_mem hp
    rw [List.count_append, List.count_cons_self] at hcount
    have hw := hdigits w (by omega) fun c hc => List.mem_append_left _ hc
    have hf := hdigits f (by omega) fun c hc =>
      List.mem_append_right _ (List.mem_cons_of_mem _ hc)
    refine ⟨⟨w, some f, ?_, ?_⟩, rfl⟩
    · intro c hc
      rcases List.mem_append.1 hc with hc | hc
      · apply hw c hc
      · apply hf c hc
    · intro hnil
      obtain ⟨rfl, hfnil⟩ := List.append_eq_nil_iff.1 hnil
      rw [show f = [] from hfnil, List.nil_append, List.mem_singleton] at hd
      rw [hd] at hdd
      cases hdd
  · have hw := hdigits cs (List.count_eq_zero.2 hp) fun c hc => hc
    refine ⟨⟨cs, none, ?_, ?_⟩, List.append_nil cs⟩
    · simpa using hw
    · simpa using List.ne_nil_of_mem hd

/-- The runs of digits and points that pass for numbers are the numerals. -/
theorem isNumber_iff {cs : List Char} (hcs : ∀ c ∈ cs, isNumeric c = true) :
  isNumber cs = true ↔ ∃ n : Numeral, n.text = cs
  := by
  rw [isNumber, Bool.and_eq_true, List.any_eq_true, decide_eq_true_eq]
  constructor
  · rintro ⟨hdigit, hcount⟩
    apply exists_numeral hcs hdigit hcount
  · rintro ⟨n, rfl⟩
    exact ⟨n.exists_isDigit_text, n.count_point_text_le⟩

/-- The spellings of the units are those that are understood. -/
theorem unitNanos?_eq_some_iff (u : String) (scale : Nat) :
  unitNanos? u.toList = some scale ↔ (u, scale) ∈ spellings
  := by
  constructor
  · intro h
    have hu : String.ofList u.toList = u := String.ofList_toList
    rw [← hu]
    revert h
    generalize u.toList = cs
    intro h
    unfold unitNanos? at h
    split at h
    all_goals cases h
    all_goals decide
  · intro h
    simp only [spellings, List.mem_cons, Prod.mk.injEq, List.not_mem_nil, or_false] at h
    rcases h with ⟨rfl, rfl⟩ | ⟨rfl, rfl⟩ | ⟨rfl, rfl⟩ | ⟨rfl, rfl⟩ | ⟨rfl, rfl⟩ | ⟨rfl, rfl⟩
      | ⟨rfl, rfl⟩ | ⟨rfl, rfl⟩
    all_goals rfl

namespace Quantity

variable (q : Quantity)

theorem isNumeric_unit :
  ∀ c ∈ q.unit.toList, isNumeric c = false
  := by
  have hall : ∀ p ∈ spellings, p.1.toList.all (!isNumeric ·) = true := by decide
  intro c hc
  simpa using List.all_eq_true.1 (hall _ q.spells) c hc

theorem unit_ne_nil :
  q.unit.toList ≠ []
  := by
  have hall : ∀ p ∈ spellings, p.1.toList ≠ [] := by decide
  apply hall _ q.spells

theorem scale_pos :
  0 < q.scale
  := by
  have hall : ∀ p ∈ spellings, 0 < p.2 := by decide
  apply hall _ q.spells

theorem text_ne_nil :
  q.text ≠ []
  := List.append_ne_nil_of_left_ne_nil q.numeral.text_ne_nil _

theorem endsUnit_text (rest : List Char) :
  EndsUnit (q.text ++ rest)
  := by
  rw [text, List.append_assoc]
  apply endsUnit_of_all q.numeral.isNumeric_text q.numeral.text_ne_nil

theorem endsUnit_textOf {qs : List Quantity} {rest : List Char} (hrest : EndsUnit rest) :
  EndsUnit (textOf qs ++ rest)
  := by
  cases qs with
  | nil => apply hrest
  | cons q qs =>
    rw [textOf_cons]
    apply q.endsUnit_text

end Quantity

/-! ### Taking a text apart -/

/-- A text that begins with a digit or a point begins with a term that has them. -/
theorem splitTerms_of_numeric {c : Char} (h : isNumeric c = true) (cs : List Char) :
  ∃ t ts, splitTerms (c :: cs) = t :: ts ∧ t.number.isEmpty = false
  := by
  rw [splitTerms]
  split
  · rw [if_pos h]
    exact ⟨_, _, rfl, rfl⟩
  · rw [if_pos h]
    exact ⟨_, _, rfl, rfl⟩

/-- A run of other characters at the beginning is the unit of a term without a number. -/
theorem splitTerms_of_unit {u rest : List Char} (hu : ∀ c ∈ u, isNumeric c = false)
    (hne : u ≠ []) (hrest : EndsUnit rest) :
  splitTerms (u ++ rest) = ⟨[], u⟩ :: splitTerms rest
  := by
  induction u with
  | nil => cases hne rfl
  | cons c u ih =>
    have hc : ¬ isNumeric c = true := by
      rw [hu c List.mem_cons_self]
      exact Bool.false_ne_true
    rw [List.cons_append, splitTerms]
    cases u with
    | nil =>
      cases rest with
      | nil => simp only [List.nil_append, splitTerms, if_neg hc]
      | cons d rest =>
        obtain ⟨t, ts, ht, hnumber⟩ := splitTerms_of_numeric (hrest d rfl) rest
        simp only [List.nil_append, ht, if_neg hc, hnumber, Bool.false_eq_true, if_false]
    | cons d u =>
      have hih := ih (fun c hc => hu c (List.mem_cons_of_mem _ hc)) (List.cons_ne_nil d u)
      simp only [hih, if_neg hc, List.isEmpty_nil, if_true]

/-- A run of digits and points goes to the number of the term that follows. -/
theorem splitTerms_append {n cs : List Char} {t : Term} {ts : List Term}
    (hn : ∀ c ∈ n, isNumeric c = true) (h : splitTerms cs = t :: ts) :
  splitTerms (n ++ cs) = ⟨n ++ t.number, t.unit⟩ :: ts
  := by
  induction n with
  | nil => apply h
  | cons c n ih =>
    have hih := ih fun c hc => hn c (List.mem_cons_of_mem _ hc)
    rw [List.cons_append, splitTerms, hih]
    simp only [hn c List.mem_cons_self, if_true]
    rfl

/-- A number and a unit, both of full length, are the first term. -/
theorem splitTerms_of_runs {n u rest : List Char} (hn : ∀ c ∈ n, isNumeric c = true)
    (hu : ∀ c ∈ u, isNumeric c = false) (hne : u ≠ []) (hrest : EndsUnit rest) :
  splitTerms (n ++ (u ++ rest)) = ⟨n, u⟩ :: splitTerms rest
  := by
  rw [splitTerms_append hn (splitTerms_of_unit hu hne hrest), List.append_nil]

/-- A number at the end of a text is a term without a unit. -/
theorem splitTerms_of_number {n : List Char} (hn : ∀ c ∈ n, isNumeric c = true) (hne : n ≠ []) :
  splitTerms n = [⟨n, []⟩]
  := by
  obtain ⟨m, d, rfl⟩ := List.eq_nil_or_concat' n |>.resolve_left hne
  have hd : splitTerms [d] = [⟨[d], []⟩] := by
    have hnumeric : isNumeric d = true := hn d (by simp)
    rw [splitTerms]
    simp only [splitTerms, hnumeric, if_true]
  apply splitTerms_append (fun c hc => hn c (List.mem_append_left _ hc)) hd

/-- A text begins with a longest run of characters of a kind. -/
theorem exists_run (p : Char → Bool) (cs : List Char) :
  ∃ r rest, cs = r ++ rest ∧ (∀ c ∈ r, p c = true) ∧ ∀ c ∈ rest.head?, p c = false
  := by
  use cs.takeWhile p, cs.dropWhile p, List.takeWhile_append_dropWhile.symm
  constructor
  · intro c hc
    apply List.mem_takeWhile_imp hc
  · intro c hc
    have hnot := List.head?_dropWhile_not p cs
    rw [Option.mem_def.1 hc] at hnot
    apply hnot

/-- After a number the text is over or a unit begins. -/
theorem EndsNumber.eq_nil_or_unit {cs : List Char} (h : EndsNumber cs) :
  cs = [] ∨ ∃ u rest, cs = u ++ rest ∧ u ≠ [] ∧ (∀ c ∈ u, isNumeric c = false) ∧ EndsUnit rest
  := by
  obtain ⟨u, rest, rfl, hu, hrest⟩ := exists_run (!isNumeric ·) cs
  have hends : EndsUnit rest := fun c hc => by simpa using hrest c hc
  cases u with
  | nil =>
    left
    cases rest with
    | nil => rfl
    | cons c rest =>
      have hc := h c rfl
      rw [hends c rfl] at hc
      cases hc
  | cons c u =>
    right
    use c :: u, rest, rfl, List.cons_ne_nil c u
    constructor
    · intro d hd
      simpa using hu d hd
    · apply hends

/-- A number of full length is that of the first term. -/
theorem splitTerms_of_endsNumber {n rest : List Char} (hn : ∀ c ∈ n, isNumeric c = true)
    (hrest : EndsNumber rest) (hne : n ++ rest ≠ []) :
  ∃ u ts, splitTerms (n ++ rest) = ⟨n, u⟩ :: ts
  := by
  rcases hrest.eq_nil_or_unit with rfl | ⟨u, rest, rfl, hu, hunit, hends⟩
  · rw [List.append_nil] at hne ⊢
    exact ⟨_, _, splitTerms_of_number hn hne⟩
  · exact ⟨_, _, splitTerms_of_runs hn hunit hu hends⟩

/-- What holds of the empty text and of a number, and of a text as soon as it holds of what
follows its first number and its first unit, holds of every text. -/
theorem runs_induction {P : List Char → Prop} (nil : P [])
    (number : ∀ n : List Char, (∀ c ∈ n, isNumeric c = true) → n ≠ [] → P n)
    (runs : ∀ n u rest : List Char, (∀ c ∈ n, isNumeric c = true) →
      (∀ c ∈ u, isNumeric c = false) → u ≠ [] → EndsUnit rest → P rest → P (n ++ (u ++ rest)))
    (cs : List Char) :
  P cs
  := by
  induction h : cs.length using Nat.strong_induction_on generalizing cs with
  | h length ih =>
    obtain ⟨n, tail, rfl, hn, htail⟩ := exists_run isNumeric cs
    rcases EndsNumber.eq_nil_or_unit htail with rfl | ⟨u, rest, rfl, hu, hunit, hends⟩
    · rw [List.append_nil]
      by_cases hnil : n = []
      · rw [hnil]
        apply nil
      · apply number n hn hnil
    · apply runs n u rest hn hunit hu hends
      apply ih _ _ rest rfl
      have hpos := List.length_pos_iff.2 hu
      simp only [List.length_append] at h
      omega

end FrameCache.Duration
