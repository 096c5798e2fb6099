import FrameCache.Proofs.DurationGrammar

/-!
# Reading terms

A term of the grammar is read as it is counted, unless one of the checks of `Quantity.Exceeds`
refuses it.  So a run of terms is read as their total, as long as the total stays within a
word, and reading ends at the first term that is `Malformed` or refused by a check.

The digits after a point are added without a check.  `FractionsFit` says that this never
leaves a word.
-/

namespace FrameCache.Duration

open Quantity (textOf total textOf_cons add_total_cons)

/-! ### Terms of the grammar -/

namespace Quantity

variable (q : Quantity)

/-- What a text that begins with the term is cut into. -/
def term : Term := ⟨q.numeral.text, q.unit.toList⟩

theorem splitTerms_text {rest : List Char} (hrest : EndsUnit rest) :
  splitTerms (q.text ++ rest) = q.term :: splitTerms rest
  := by
  rw [text, List.append_assoc]
  apply splitTerms_of_runs q.numeral.isNumeric_text q.isNumeric_unit q.unit_ne_nil hrest

theorem splitTerms_textOf (qs : List Quantity) {rest : List Char} (hrest : EndsUnit rest) :
  splitTerms (textOf qs ++ rest) = qs.map term ++ splitTerms rest
  := by
  induction qs with
  | nil => rfl
  | cons q qs ih =>
    rw [textOf_cons, q.splitTerms_text (endsUnit_textOf hrest), ih]
    rfl

/-- The value of a term of the grammar, and the checks of its range. -/
theorem nanos_term :
  q.term.nanos = if wordSize ≤ q.whole then .error .invalidNumber
    else if wordSize ≤ q.whole * q.scale then .error .overflow
    else .ok (q.counted % wordSize)
  := by
  have hnumber : isNumber q.numeral.text = true :=
    (isNumber_iff q.numeral.isNumeric_text).2 ⟨q.numeral, rfl⟩
  have hunit : q.unit.toList.isEmpty = false := by
    rw [List.isEmpty_eq_false_iff]
    apply q.unit_ne_nil
  have hscale : unitNanos? q.unit.toList = some q.scale :=
    (unitNanos?_eq_some_iff q.unit q.scale).2 q.spells
  rw [Term.nanos, term]
  simp only [hnumber, hunit, hscale, takeWhile_isDigit_text, decimals_eq, Bool.not_true,
    Bool.false_eq_true, if_false]
  rfl

/-- The digits after the point can be added to the whole part within a word. -/
def AddsUp : Prop := q.whole * q.scale < wordSize → q.counted < wordSize

/-- The checks of the range of a term, when the terms before it come to `before`, and the
faults that they find. -/
inductive Exceeds (before : Nat) : Fault → Prop where
  /-- The whole part does not fit in a word. -/
  | whole (h : wordSize ≤ q.whole) : Exceeds before .invalidNumber
  /-- The nanoseconds of the whole part do not fit in a word. -/
  | product (hw : q.whole < wordSize) (h : wordSize ≤ q.whole * q.scale) :
    Exceeds before .overflow
  /-- The sum does not fit in a word. -/
  | sum (hp : q.whole * q.scale < wordSize) (h : wordSize ≤ before + q.counted) :
    Exceeds before .overflow

theorem whole_le_product :
  q.whole ≤ q.whole * q.scale
  := Nat.le_mul_of_pos_right _ q.scale_pos

theorem product_le_counted :
  q.whole * q.scale ≤ q.counted
  := Nat.le_add_right _ _

variable {q} {before : Nat}

/-- A term that stays within a word is added to the sum. -/
theorem sumTerms_cons (h : before + q.counted < wordSize) (ts : List Term) :
  sumTerms before (q.term :: ts) = sumTerms (before + q.counted) ts
  := by
  have hcounted : q.counted < wordSize := Nat.lt_of_le_of_lt (Nat.le_add_left _ _) h
  have hproduct := Nat.lt_of_le_of_lt q.product_le_counted hcounted
  have hwhole := Nat.lt_of_le_of_lt q.whole_le_product hproduct
  rw [sumTerms, nanos_term, if_neg (Nat.not_le.2 hwhole), if_neg (Nat.not_le.2 hproduct)]
  simp only [Nat.mod_eq_of_lt hcounted, if_neg (Nat.not_le.2 h)]

/-- A term that a check refuses ends the sum with the fault. -/
theorem Exceeds.sumTerms_cons {f : Fault} (h : q.Exceeds before f) (hadds : q.AddsUp)
    (ts : List Term) :
  sumTerms before (q.term :: ts) = .error f
  := by
  rw [sumTerms, nanos_term]
  cases h with
  | whole h => rw [if_pos h]
  | product hw h => rw [if_neg (Nat.not_le.2 hw), if_pos h]
  | sum hp h =>
    have hw := Nat.lt_of_le_of_lt q.whole_le_product hp
    rw [if_neg (Nat.not_le.2 hw), if_neg (Nat.not_le.2 hp)]
    simp only [Nat.mod_eq_of_lt (hadds hp), if_pos h]

/-- A term is added to the sum or refused by a check. -/
theorem fits_or_exceeds (q : Quantity) (before : Nat) :
  before + q.counted < wordSize ∨ ∃ f, q.Exceeds before f
  := by
  by_cases hsum : before + q.counted < wordSize
  · left
    apply hsum
  · right
    by_cases hproduct : q.whole * q.scale < wordSize
    · exact ⟨_, .sum hproduct (Nat.le_of_not_lt hsum)⟩
    · by_cases hwhole : q.whole < wordSize
      · exact ⟨_, .product hwhole (Nat.le_of_not_lt hproduct)⟩
      · exact ⟨_, .whole (Nat.le_of_not_lt hwhole)⟩

/-- A run of terms that stays within a word is added to the sum. -/
theorem sumTerms_append (qs : List Quantity) (before : Nat) (h : before + total qs < wordSize)
    (ts : List Term) :
  sumTerms before (qs.map term ++ ts) = sumTerms (before + total qs) ts
  := by
  induction qs generalizing before with
  | nil => rfl
  | cons q qs ih =>
    rw [add_total_cons] at h ⊢
    change sumTerms before (q.term :: (qs.map term ++ ts)) = _
    rw [sumTerms_cons (Nat.lt_of_le_of_lt (Nat.le_add_right _ _) h), ih _ h]

end Quantity

/-! ### Faults -/

/-- The term that begins a text is not of the grammar. -/
inductive Malformed : List Char → Fault → Prop where
  /-- It has no digit, or more than one point. -/
  | number {n rest : List Char} (hn : ∀ c ∈ n, isNumeric c = true) (hrest : EndsNumber rest)
    (h : ∀ m : Numeral, m.text ≠ n) : Malformed (n ++ rest) .invalidNumber
  /-- The text ends where its unit is expected. -/
  | missingUnit (m : Numeral) : Malformed m.text .missingUnit
  /-- What follows the number, up to the next digit or point, spells no unit. -/
  | unknownUnit (m : Numeral) {u : String} {rest : List Char} (hne : u ≠ "")
    (hu : ∀ c ∈ u.toList, isNumeric c = false) (hrest : EndsUnit rest)
    (h : ∀ scale, (u, scale) ∉ spellings) :
    Malformed (m.text ++ (u.toList ++ rest)) (.unknownUnit u)

/-- In `cs` the term `q` comes after the terms `qs` and before `rest`. -/
structure Follows (cs : List Char) (qs : List Quantity) (q : Quantity) (rest : List Char) :
    Prop where
  /-- The text is put together so. -/
  eq : cs = textOf qs ++ (q.text ++ rest)
  /-- The unit of the term ends there. -/
  ends : EndsUnit rest

/-- No term that is reached leaves a word when its digits after the point are added, if the
terms before the text come to `before`. -/
def FractionsFit (before : Nat) (cs : List Char) : Prop :=
  ∀ qs q rest, Follows cs qs q rest → before + total qs < wordSize → q.AddsUp

/-- The fault of the leftmost term of `cs` that is malformed or refused by a check, if the terms
before the text come to `before`. -/
inductive FirstFault (before : Nat) (cs : List Char) : Fault → Prop where
  /-- After some terms comes one that is malformed. -/
  | malformed {qs : List Quantity} {rest : List Char} {f : Fault} (hcs : cs = textOf qs ++ rest)
    (hresumes : qs ≠ [] → rest ≠ [] ∧ EndsUnit rest) (hbefore : before + total qs < wordSize)
    (h : Malformed rest f) : FirstFault before cs f
  /-- After some terms comes one that is refused. -/
  | exceeds {qs : List Quantity} {q : Quantity} {rest : List Char} {f : Fault}
    (hcs : Follows cs qs q rest) (hbefore : before + total qs < wordSize)
    (h : q.Exceeds (before + total qs) f) : FirstFault before cs f

section

variable {before : Nat} {q : Quantity} {cs rest : List Char} {f : Fault}

theorem Follows.cons {qs : List Quantity} {q' : Quantity} (q : Quantity)
    (h : Follows cs qs q' rest) :
  Follows (q.text ++ cs) (q :: qs) q' rest
  := by
  use (by rw [h.eq, textOf_cons]), h.ends

/-- The first fault after a term is the first fault from that term on. -/
theorem FirstFault.cons (hrest : EndsUnit rest) (hne : rest ≠ [])
    (h : FirstFault (before + q.counted) rest f) :
  FirstFault before (q.text ++ rest) f
  := by
  cases h with
  | malformed hcs hresumes hbefore h =>
    rename_i qs rest'
    have hcs' : q.text ++ rest = textOf (q :: qs) ++ rest' := by rw [hcs, textOf_cons]
    apply malformed hcs'
    · intro _
      cases qs with
      | nil =>
        rw [show rest = rest' from hcs] at hne hrest
        exact ⟨hne, hrest⟩
      | cons p qs => apply hresumes (List.cons_ne_nil p qs)
    · rw [add_total_cons]
      apply hbefore
    · apply h
  | exceeds hcs hbefore h =>
    rename_i qs q' rest'
    apply exceeds (hcs.cons q)
    · rw [add_total_cons]
      apply hbefore
    · rw [add_total_cons]
      apply h

end

/-! ### Where reading ends -/

/-- Reading ends at a malformed term. -/
theorem Malformed.sumTerms_splitTerms {cs : List Char} {f : Fault} (h : Malformed cs f)
    (hcs : cs ≠ []) (before : Nat) :
  sumTerms before (splitTerms cs) = .error f
  := by
  cases h with
  | @number n rest hn hrest h =>
    have hnumber : isNumber n = false := by
      rw [← Bool.not_eq_true, isNumber_iff hn]
      rintro ⟨m, hm⟩
      apply h m hm
    obtain ⟨u, ts, hsplit⟩ := splitTerms_of_endsNumber hn hrest hcs
    rw [hsplit, sumTerms, Term.nanos]
    simp only [hnumber, Bool.not_false, if_true]
  | missingUnit m =>
    have hnumber := (isNumber_iff m.isNumeric_text).2 ⟨m, rfl⟩
    rw [splitTerms_of_number m.isNumeric_text m.text_ne_nil, sumTerms, Term.nanos]
    simp only [hnumber, Bool.not_true, Bool.false_eq_true, if_false, List.isEmpty_nil, if_true]
  | @unknownUnit m u rest hne hu hrest h =>
    have hnumber := (isNumber_iff m.isNumeric_text).2 ⟨m, rfl⟩
    have hnil : u.toList ≠ [] := fun hnil => hne (String.toList_eq_nil_iff.1 hnil)
    have hunit : unitNanos? u.toList = none := by
      apply Option.eq_none_iff_forall_ne_some.2
      intro scale hscale
      apply h scale ((unitNanos?_eq_some_iff u scale).1 hscale)
    rw [splitTerms_of_runs m.isNumeric_text hu hnil hrest, sumTerms, Term.nanos]
    simp only [hnumber, hunit, List.isEmpty_eq_false_iff.2 hnil, Bool.not_true,
      Bool.false_eq_true, if_false, String.ofList_toList]

/-- The first fault of a text is the one that reading it ends with. -/
theorem FirstFault.sumTerms_splitTerms {before : Nat} {cs : List Char} {f : Fault}
    (h : FirstFault before cs f) (hne : cs ≠ []) (hfit : FractionsFit before cs) :
  sumTerms before (splitTerms cs) = .error f
  := by
  cases h with
  | @malformed qs rest _ hcs hresumes hbefore h =>
    cases qs with
    | nil =>
      rw [show cs = rest from hcs] at hne ⊢
      apply h.sumTerms_splitTerms hne
    | cons q qs =>
      obtain ⟨hrest, hends⟩ := hresumes (List.cons_ne_nil q qs)
      rw [hcs, Quantity.splitTerms_textOf _ hends, Quantity.sumTerms_append _ _ hbefore]
      apply h.sumTerms_splitTerms hrest
  | @exceeds qs q rest _ hcs hbefore h =>
    have hadds := hfit _ _ _ hcs hbefore
    rw [hcs.eq, Quantity.splitTerms_textOf _ (q.endsUnit_text rest),
      Quantity.sumTerms_append _ _ hbefore, q.splitTerms_text hcs.ends]
    apply h.sumTerms_cons hadds

theorem Malformed.firstFault {before : Nat} {cs : List Char} {f : Fault} (h : Malformed cs f)
    (hbefore : before < wordSize) :
  FirstFault before cs f
  := by
  have hcs : cs = textOf [] ++ cs := rfl
  exact .malformed hcs (absurd rfl) hbefore h

theorem Quantity.Exceeds.firstFault {before : Nat} {q : Quantity} {rest : List Char} {f : Fault}
    (h : q.Exceeds before f) (hrest : EndsUnit rest) (hbefore : before < wordSize) :
  FirstFault before (q.text ++ rest) f
  := by
  have hcs : Follows (q.text ++ rest) [] q rest := ⟨rfl, hrest⟩
  exact .exceeds hcs hbefore h

/-- The first two runs of a text are a term of the grammar, or they are malformed. -/
theorem isQuantity_or_malformed {n u rest : List Char} (hn : ∀ c ∈ n, isNumeric c = true)
    (hu : ∀ c ∈ u, isNumeric c = false) (hne : u ≠ []) (hrest : EndsUnit rest) :
  (∃ q : Quantity, n ++ u = q.text) ∨ ∃ f, Malformed (n ++ (u ++ rest)) f
  := by
  by_cases hm : ∃ m : Numeral, m.text = n
  · obtain ⟨m, rfl⟩ := hm
    have hto : (String.ofList u).toList = u := String.toList_ofList
    by_cases hscale : ∃ scale, (String.ofList u, scale) ∈ spellings
    · left
      obtain ⟨scale, hspells⟩ := hscale
      use ⟨m, String.ofList u, scale, hspells⟩
      rw [Quantity.text, hto]
    · right
      rw [← hto] at hu hne ⊢
      refine ⟨_, .unknownUnit m ?_ hu hrest fun scale h => hscale ⟨scale, h⟩⟩
      intro hnil
      apply hne
      rw [hnil]
      rfl
  · right
    exact ⟨_, .number hn (endsNumber_of_all hu hne) fun m h => hm ⟨m, h⟩⟩

/-- A text is a run of terms that stays within a word, or it has a first fault. -/
theorem isTerms_or_firstFault (cs : List Char) (before : Nat) (hbefore : before < wordSize) :
  (∃ qs, cs = textOf qs ∧ before + total qs < wordSize)
    ∨ cs ≠ [] ∧ ∃ f, FirstFault before cs f
  := by
  induction cs using runs_induction generalizing before with
  | nil =>
    left
    exact ⟨[], rfl, hbefore⟩
  | number n hn hne =>
    right
    use hne
    by_cases hm : ∃ m : Numeral, m.text = n
    · obtain ⟨m, rfl⟩ := hm
      exact ⟨_, (Malformed.missingUnit m).firstFault hbefore⟩
    · rw [← List.append_nil n]
      have hmalformed : Malformed (n ++ []) .invalidNumber :=
        .number hn (fun c hc => by cases hc) fun m h => hm ⟨m, h⟩
      exact ⟨_, hmalformed.firstFault hbefore⟩
  | runs n u rest hn hu hne hrest ih =>
    rcases isQuantity_or_malformed hn hu hne hrest with ⟨q, hq⟩ | ⟨f, hf⟩
    · rw [← List.append_assoc, hq]
      rcases q.fits_or_exceeds before with hsum | ⟨f, hf⟩
      · rcases ih (before + q.counted) hsum with ⟨qs, rfl, htotal⟩ | ⟨hcs, f, hf⟩
        · left
          use q :: qs, rfl
          rw [add_total_cons]
          apply htotal
        · right
          use List.append_ne_nil_of_right_ne_nil _ hcs, f
          apply hf.cons hrest hcs
      · right
        use List.append_ne_nil_of_left_ne_nil q.text_ne_nil _, f
        apply hf.firstFault hrest hbefore
    · right
      refine ⟨?_, f, hf.firstFault hbefore⟩
      apply List.append_ne_nil_of_right_ne_nil
      apply List.append_ne_nil_of_left_ne_nil hne

/-! ### Short texts -/

theorem digit_le {c : Char} (h : c.isDigit = true) :
  c.toNat - '0'.toNat ≤ 9
  := by
  have hle : c.toNat ≤ 57 := (Char.isDigit_iff_toNat.1 h).2
  change c.toNat - 48 ≤ 9
  omega

theorem ofDigitChars_lt {ds : List Char} (hds : ∀ c ∈ ds, c.isDigit = true) (n : Nat) :
  Nat.ofDigitChars 10 ds n < (n + 1) * 10 ^ ds.length
  := by
  induction ds generalizing n with
  | nil =>
    rw [Nat.ofDigitChars_nil, List.length_nil]
    omega
  | cons d ds ih =>
    have hd := digit_le (hds d List.mem_cons_self)
    rw [Nat.ofDigitChars_cons, List.length_cons, Nat.pow_succ', ← Nat.mul_assoc]
    apply Nat.lt_of_lt_of_le (ih (fun c hc => hds c (List.mem_cons_of_mem _ hc)) _)
    apply Nat.mul_le_mul_right
    omega

/-- The digits after the point are worth less than one of the unit. -/
theorem fractionNanos_lt {place : Nat} (hplace : 0 < place) {ds : List Char}
    (hds : ∀ c ∈ ds, c.isDigit = true) :
  fractionNanos place ds < place
  := by
  induction ds generalizing place with
  | nil => apply hplace
  | cons d ds ih =>
    rw [fractionNanos]
    split
    · apply hplace
    · rename_i hne
      have hd := digit_le (hds d List.mem_cons_self)
      have hih := ih (Nat.pos_of_ne_zero hne) fun c hc => hds c (List.mem_cons_of_mem _ hc)
      have hmul := Nat.mul_le_mul_right (place / 10) hd
      have hdiv := Nat.mul_div_le place 10
      omega

/-- In a text of up to 25 characters no term can leave a word. -/
theorem fractionsFit_of_length_le {cs : List Char} (h : cs.length ≤ 25) (before : Nat) :
  FractionsFit before cs
  := by
  intro qs q rest hf _ _
  have hlength : q.numeral.whole.length ≤ 25 := by
    refine Nat.le_trans ?_ h
    rw [hf.eq, Quantity.text, Numeral.text]
    simp only [List.length_append]
    omega
  have hwhole : q.whole < 10 ^ 25 := by
    have hlt := ofDigitChars_lt q.numeral.isDigit_whole 0
    rw [Nat.zero_add, Nat.one_mul] at hlt
    exact Nat.lt_of_lt_of_le hlt (Nat.pow_le_pow_right (by decide) hlength)
  have hscale : q.scale ≤ 3600000000000 := by
    have hall : ∀ p ∈ spellings, p.2 ≤ 3600000000000 := by decide
    apply hall _ q.spells
  have hfraction := fractionNanos_lt q.scale_pos q.numeral.isDigit_decimals
  have hword : 10 ^ 25 * 3600000000000 < wordSize := by decide
  refine Nat.lt_of_le_of_lt ?_ hword
  calc q.counted ≤ q.whole * q.scale + q.scale := Nat.add_le_add_left (Nat.le_of_lt hfraction) _
    _ = (q.whole + 1) * q.scale := (Nat.succ_mul _ _).symm
    _ ≤ 10 ^ 25 * 3600000000000 := Nat.mul_le_mul hwhole hscale

end FrameCache.Duration
