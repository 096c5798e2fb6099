import FrameCache.Proofs.DurationReading
import Mathlib.Data.List.Induction

/-!
# Texts that are no durations

`Blamed` says which fault a text has: that of its leftmost term that is malformed or out of
range, or, when there is none, that the sum is beyond the horizon.  `TooLong` is what can be
wrong with a text of the grammar.

`Duration.parse` accepts only texts of the grammar, and it blames just the fault that the text
has.
-/

namespace FrameCache.Duration

open Quantity (textOf total)

/-- What is wrong with a text without sign and outer blanks. -/
inductive Blamed (cs : List Char) : Fault → Prop where
  /-- A term is malformed or refused by a check. -/
  | term {f : Fault} (h : FirstFault 0 cs f) : Blamed cs f
  /-- The sum is beyond the horizon. -/
  | result {qs : List Quantity} (hw : Writes cs qs) (hword : total qs < wordSize)
    (h : horizon < total qs) : Blamed cs .overflow

/-- What is wrong with terms of the grammar: one of them is refused by a check, or their sum is
beyond the horizon. -/
inductive TooLong (qs : List Quantity) : Fault → Prop where
  /-- A term is refused by a check. -/
  | term {ps rs : List Quantity} {q : Quantity} {f : Fault} (hqs : qs = ps ++ q :: rs)
    (hbefore : total ps < wordSize) (h : q.Exceeds (total ps) f) : TooLong qs f
  /-- The sum is beyond the horizon. -/
  | result (hword : total qs < wordSize) (h : horizon < total qs) : TooLong qs .overflow

variable {cs : List Char} {f : Fault} {qs : List Quantity}

/-! ### The grammar -/

theorem Writes.ne_nil (h : Writes cs qs) :
  cs ≠ []
  := by
  cases h with
  | zero => apply List.cons_ne_nil
  | terms q qs => apply List.append_ne_nil_of_left_ne_nil q.text_ne_nil

/-- A text of the grammar begins with a digit or a point. -/
theorem Writes.isNumeric_head (h : Writes cs qs) :
  EndsUnit cs
  := by
  cases h with
  | zero =>
    intro c hc
    cases hc
    rfl
  | terms q qs => apply q.endsUnit_text

/-- No run of terms is a bare `0`. -/
theorem textOf_ne_zero (q : Quantity) (qs : List Quantity) :
  textOf (q :: qs) ≠ ['0']
  := by
  intro h
  obtain ⟨c, hc⟩ := List.exists_mem_of_ne_nil _ q.unit_ne_nil
  have hmem : c ∈ textOf (q :: qs) :=
    List.mem_append_left _ (List.mem_append_right _ hc)
  rw [h, List.mem_singleton] at hmem
  have hunit := q.isNumeric_unit c hc
  rw [hmem] at hunit
  cases hunit

/-! ### Texts without sign -/

theorem sumTerms_textOf (h : total qs < wordSize) :
  sumTerms 0 (splitTerms (textOf qs)) = .ok (total qs)
  := by
  have hsplit := Quantity.splitTerms_textOf qs endsUnit_nil
  rw [← Nat.zero_add (total qs)] at h
  rw [List.append_nil] at hsplit
  rw [hsplit, Quantity.sumTerms_append qs 0 h, Nat.zero_add]
  rfl

theorem parseUnsigned_of_sum {n : Nat} (hzero : cs ≠ ['0']) (hne : cs ≠ [])
    (h : sumTerms 0 (splitTerms cs) = .ok n) :
  parseUnsigned cs = if horizon < n then .error .overflow else .ok ⟨n⟩
  := by
  rw [parseUnsigned, if_neg hzero, List.isEmpty_eq_false_iff.2 hne, h]
  rfl

theorem parseUnsigned_of_fault (hzero : cs ≠ ['0']) (hne : cs ≠ [])
    (h : sumTerms 0 (splitTerms cs) = .error f) :
  parseUnsigned cs = .error f
  := by
  rw [parseUnsigned, if_neg hzero, List.isEmpty_eq_false_iff.2 hne, h]
  rfl

/-- A text of the grammar whose sum stays within a word is read as the sum, if that is within
the horizon. -/
theorem Writes.parseUnsigned_eq (hw : Writes cs qs) (h : total qs < wordSize) :
  parseUnsigned cs = if horizon < total qs then .error .overflow else .ok ⟨total qs⟩
  := by
  cases hw with
  | zero => rfl
  | terms q qs =>
    apply parseUnsigned_of_sum (textOf_ne_zero q qs) (Writes.terms q qs).ne_nil
    apply sumTerms_textOf h

/-- The first fault of a text is blamed. -/
theorem FirstFault.parseUnsigned_eq (h : FirstFault 0 cs f) (hzero : cs ≠ ['0']) (hne : cs ≠ [])
    (hfit : FractionsFit 0 cs) :
  parseUnsigned cs = .error f
  := parseUnsigned_of_fault hzero hne (h.sumTerms_splitTerms hne hfit)

/-- In an empty text a number is missing. -/
theorem FirstFault.eq_of_nil (h : FirstFault 0 cs f) (hnil : cs = []) :
  f = .invalidNumber
  := by
  cases h with
  | malformed hcs _ _ h =>
    rw [hnil] at hcs
    obtain ⟨-, hrest⟩ := List.append_eq_nil_iff.1 hcs.symm
    cases h with
    | number => rfl
    | missingUnit m => cases m.text_ne_nil hrest
    | unknownUnit m => cases m.text_ne_nil (List.append_eq_nil_iff.1 hrest).1
  | @exceeds qs q rest _ hcs _ _ =>
    have heq := hcs.eq
    rw [hnil] at heq
    obtain ⟨-, htext⟩ := List.append_eq_nil_iff.1 heq.symm
    cases q.text_ne_nil (List.append_eq_nil_iff.1 htext).1

/-- A text is of the grammar, with a sum that stays within a word, or it has a first fault. -/
theorem writes_or_firstFault (cs : List Char) :
  (∃ qs, Writes cs qs ∧ total qs < wordSize) ∨ ∃ f, FirstFault 0 cs f
  := by
  rcases isTerms_or_firstFault cs 0 (by decide) with ⟨qs, rfl, hword⟩ | ⟨-, hf⟩
  · cases qs with
    | nil =>
      right
      have hempty : Malformed ([] ++ []) .invalidNumber :=
        .number (fun c hc => by cases hc) (fun c hc => by cases hc) fun m hm => m.text_ne_nil hm
      exact ⟨_, hempty.firstFault (by decide)⟩
    | cons q qs =>
      left
      rw [Nat.zero_add] at hword
      exact ⟨_, .terms q qs, hword⟩
  · right
    apply hf

/-- The fault of a text without sign is the one that is blamed; only a bare `0` needs no
unit. -/
theorem parseUnsigned_eq_error_iff (hfit : FractionsFit 0 cs) :
  parseUnsigned cs = .error f ↔ cs ≠ ['0'] ∧ Blamed cs f
  := by
  by_cases hzero : cs = ['0']
  · rw [hzero]
    simp [parseUnsigned]
  by_cases hne : cs = []
  · rw [hne]
    constructor
    · intro h
      cases h
      use hne ▸ hzero
      rcases writes_or_firstFault [] with ⟨qs, hw, -⟩ | ⟨f, hf⟩
      · cases hw.ne_nil rfl
      · rw [← hf.eq_of_nil rfl]
        exact .term hf
    · rintro ⟨-, hb⟩
      cases hb with
      | term h => rw [h.eq_of_nil rfl]; rfl
      | result hw => cases hw.ne_nil rfl
  constructor
  · intro h
    use hzero
    rcases writes_or_firstFault cs with ⟨qs, hw, hword⟩ | ⟨f', hf⟩
    · rw [hw.parseUnsigned_eq hword] at h
      split at h
      · rename_i hlong
        cases h
        exact .result hw hword hlong
      · cases h
    · rw [hf.parseUnsigned_eq hzero hne hfit] at h
      cases h
      exact .term hf
  · rintro ⟨-, hb⟩
    cases hb with
    | term h => apply h.parseUnsigned_eq hzero hne hfit
    | result hw hword h => rw [hw.parseUnsigned_eq hword, if_pos h]

/-- Only texts of the grammar are accepted. -/
theorem exists_writes_of_parseUnsigned {d : Duration} (hfit : FractionsFit 0 cs)
    (h : parseUnsigned cs = .ok d) :
  ∃ qs, Writes cs qs
  := by
  rcases writes_or_firstFault cs with ⟨qs, hw, -⟩ | ⟨f, hf⟩
  · exact ⟨qs, hw⟩
  · by_cases hzero : cs = ['0']
    · exact ⟨[], hzero ▸ .zero⟩
    · have herror := (parseUnsigned_eq_error_iff hfit).2 ⟨hzero, .term hf⟩
      rw [h] at herror
      cases herror

/-! ### Faults of texts of the grammar -/

/-- Terms of the grammar sum up within a word, or the first that does not fit is refused. -/
theorem total_lt_or_tooLong (qs : List Quantity) :
  total qs < wordSize ∨ ∃ ps q rs f, qs = ps ++ q :: rs ∧ total ps < wordSize
    ∧ q.Exceeds (total ps) f
  := by
  induction qs using List.reverseRecOn with
  | nil =>
    left
    decide
  | append_singleton qs q ih =>
    rcases ih with hword | ⟨ps, q', rs, f, rfl, hbefore, hf⟩
    · have htotal : total (qs ++ [q]) = total qs + q.counted := by
        simp [total]
      rcases q.fits_or_exceeds (total qs) with hsum | ⟨f, hf⟩
      · left
        rw [htotal]
        apply hsum
      · right
        exact ⟨qs, q, [], f, rfl, hword, hf⟩
    · right
      exact ⟨ps, q', rs ++ [q], f, by simp, hbefore, hf⟩

theorem TooLong.parseUnsigned_eq (h : TooLong qs f) (hw : Writes cs qs)
    (hfit : FractionsFit 0 cs) :
  parseUnsigned cs = .error f
  := by
  cases h with
  | @term ps rs q _ hqs hbefore h =>
    cases hw with
    | zero => cases List.append_ne_nil_of_right_ne_nil ps (List.cons_ne_nil q rs) hqs.symm
    | terms q' qs =>
      have htext : textOf (q' :: qs) = textOf ps ++ (q.text ++ textOf rs) := by
        rw [hqs, textOf, List.flatMap_append]
        rfl
      have hends : EndsUnit (textOf rs) := by
        rw [← List.append_nil (textOf rs)]
        apply Quantity.endsUnit_textOf endsUnit_nil
      have hfault : FirstFault 0 (textOf (q' :: qs)) f := by
        rw [← Nat.zero_add (total ps)] at hbefore h
        exact .exceeds ⟨htext, hends⟩ hbefore h
      apply hfault.parseUnsigned_eq (textOf_ne_zero q' qs) (Writes.terms q' qs).ne_nil hfit
  | result hword h => rw [hw.parseUnsigned_eq hword, if_pos h]

/-- A text of the grammar is refused when its terms are too long, for the first reason. -/
theorem Writes.parseUnsigned_eq_error_iff (hw : Writes cs qs) (hfit : FractionsFit 0 cs) :
  parseUnsigned cs = .error f ↔ TooLong qs f
  := by
  constructor
  · intro h
    rcases total_lt_or_tooLong qs with hword | ⟨ps, q, rs, f', hqs, hbefore, hf⟩
    · rw [hw.parseUnsigned_eq hword] at h
      split at h
      · rename_i hlong
        cases h
        exact .result hword hlong
      · cases h
    · have hlong : TooLong qs f' := .term hqs hbefore hf
      rw [hlong.parseUnsigned_eq hw hfit] at h
      cases h
      apply hlong
  · intro h
    apply h.parseUnsigned_eq hw hfit

/-! ### Whole texts -/

/-- Outer blanks and a sign come first. -/
theorem parse_eq (input : String) :
  parse input = if Text.trim input.toList = [] then .error ⟨.empty, input⟩
    else if (Text.trim input.toList).head? = some '-' then .error ⟨.negative, input⟩
    else (parseUnsigned (body input)).mapError (TextError.mk · input)
  := by
  rw [parse, body]
  generalize Text.trim input.toList = cs
  unfold parseSigned
  split
  · rfl
  · rfl
  · rfl
  · rename_i hnil hminus hplus
    rw [if_neg hnil, if_neg, unsigned]
    · apply hplus
    · intro h
      obtain ⟨cs, rfl⟩ := List.head?_eq_some_iff.1 h
      apply hminus cs rfl

/-- A text of the grammar is not empty and has no minus sign. -/
theorem parse_of_writes {input : String} (h : Writes (body input) qs) :
  parse input = (parseUnsigned (body input)).mapError (TextError.mk · input)
  := by
  rw [parse_eq, if_neg, if_neg]
  · intro hminus
    obtain ⟨cs, hcs⟩ := List.head?_eq_some_iff.1 hminus
    rw [body, hcs] at h
    have hnumeric := h.isNumeric_head '-' rfl
    cases hnumeric
  · intro hnil
    rw [body, hnil] at h
    cases h.ne_nil rfl

theorem mapError_eq_error_iff {input : String} {e : TextError} (r : Except Fault Duration) :
  r.mapError (TextError.mk · input) = .error e ↔ e.input = input ∧ r = .error e.fault
  := by
  obtain ⟨fault, text⟩ := e
  cases r with
  | ok d => simp [Except.mapError]
  | error f => simp [Except.mapError, eq_comm, and_comm]

theorem mapError_eq_ok_iff {input : String} {d : Duration} (r : Except Fault Duration) :
  r.mapError (TextError.mk · input) = .ok d ↔ r = .ok d
  := by
  cases r with
  | ok d => simp [Except.mapError]
  | error f => simp [Except.mapError]

/-- What is blamed is never an empty text or a minus sign. -/
theorem Blamed.ne (h : Blamed cs f) :
  f ≠ .empty ∧ f ≠ .negative
  := by
  cases h with
  | term h =>
    cases h with
    | malformed _ _ _ h => cases h <;> simp
    | exceeds _ _ h => cases h <;> simp
  | result => simp

/-- Only texts of the grammar are accepted, and one of them is refused only because it is too
long.  A text is called empty when nothing but blanks is in it, and negative when it starts with
a minus sign; any other text is refused for the fault that it has. -/
theorem parse_blames (input : String) (hfit : FractionsFit 0 (body input)) :
  (∀ d, parse input = .ok d → ∃ qs, Writes (body input) qs)
    ∧ (∀ qs, Writes (body input) qs → ∀ e, parse input = .error e → TooLong qs e.fault)
    ∧ (parse input = .error ⟨.empty, input⟩ ↔ Text.trim input.toList = [])
    ∧ (parse input = .error ⟨.negative, input⟩ ↔ (Text.trim input.toList).head? = some '-')
    ∧ (Text.trim input.toList ≠ [] → (Text.trim input.toList).head? ≠ some '-' → ∀ e,
      parse input = .error e
        ↔ e.input = input ∧ body input ≠ ['0'] ∧ Blamed (body input) e.fault)
  := by
  have hblame : ∀ e, (parseUnsigned (body input)).mapError (TextError.mk · input) = .error e
      ↔ e.input = input ∧ body input ≠ ['0'] ∧ Blamed (body input) e.fault := by
    intro e
    rw [mapError_eq_error_iff, parseUnsigned_eq_error_iff hfit]
  constructor
  · intro d h
    rw [parse_eq] at h
    split at h
    · cases h
    · split at h
      · cases h
      · apply exists_writes_of_parseUnsigned hfit ((mapError_eq_ok_iff _).1 h)
  constructor
  · intro qs hw e h
    rw [parse_of_writes hw, mapError_eq_error_iff, hw.parseUnsigned_eq_error_iff hfit] at h
    apply h.2
  rw [parse_eq]
  by_cases hnil : Text.trim input.toList = []
  · simp [hnil]
  by_cases hminus : (Text.trim input.toList).head? = some '-'
  · simp [hnil, hminus]
  rw [if_neg hnil, if_neg hminus, hblame, hblame]
  constructor
  · simp only [hnil, iff_false]
    rintro ⟨-, -, hb⟩
    apply hb.ne.1 rfl
  constructor
  · simp only [hminus, iff_false]
    rintro ⟨-, -, hb⟩
    apply hb.ne.2 rfl
  · intro _ _
    apply hblame

/-- The unit that is blamed is all that stands before the next number. -/
theorem parse_blames_days :
  let input := "\u2003+1.5h.25m2 days3\n"
  FractionsFit 0 (body input)
    ∧ parse input = .error ⟨.unknownUnit " days", input⟩
    ∧ Blamed (body input) (.unknownUnit " days")
  := by
  intro input
  have hfit : FractionsFit 0 (body input) := fractionsFit_of_length_le (by decide) 0
  have hparse : parse input = .error ⟨.unknownUnit " days", input⟩ := by decide +kernel
  have hblame := (parse_blames input hfit).2.2.2.2 (by decide) (by decide)
    ⟨.unknownUnit " days", input⟩
  use hfit, hparse
  apply (hblame.1 hparse).2.2

end FrameCache.Duration
