import Mathlib.Algebra.Group.Nat.Defs
import BlockCalc.Proofs.Grammar.Tokens
/-! Numerals and what they stand for. As many digits as a number has in its canonical text are that
text, and a numeral of more digits begins with zeros that add nothing. The numerals of a text are its
runs of digits outside of names. -/

/-! ## Runs of digits and their values -/

namespace BlockCalc.Decimal
variable {w w' : Text}

theorem value_cons (c : Char) (w : Text) :
    value (c :: w) = 10 ^ w.length * (c.toNat - 48) + value w := by
  rw [value, Nat.ofDigitChars_cons, Nat.mul_zero, Nat.zero_add,
    Nat.ofDigitChars_eq_ofDigitChars_zero]
  rfl

theorem value_lt (valid : ∀ c ∈ w, c.isDigit = true) : value w < 10 ^ w.length := by
  induction w with
  | nil => decide
  | cons c w ih =>
      obtain ⟨digit, others⟩ := List.forall_mem_cons.mp valid
      have small : c.toNat - 48 ≤ 9 := Nat.sub_le_of_le_add (Grammar.isDigit_range digit).2
      calc value (c :: w)
        _ = 10 ^ w.length * (c.toNat - 48) + value w := value_cons c w
        _ < 10 ^ w.length * (c.toNat - 48) + 10 ^ w.length := Nat.add_lt_add_left (ih others) _
        _ ≤ 10 ^ w.length * 9 + 10 ^ w.length :=
            Nat.add_le_add_right (Nat.mul_le_mul_left _ small) _
        _ = 10 ^ w.length * 10 := (Nat.mul_succ _ 9).symm

/-- A number is written in only one way with a given count of digits. -/
theorem eq_of_value_eq (valid : ∀ c ∈ w, c.isDigit = true) (valid' : ∀ c ∈ w', c.isDigit = true)
    (length : w.length = w'.length) (same : value w = value w') : w = w' := by
  induction w generalizing w' with
  | nil => exact (List.eq_nil_of_length_eq_zero length.symm).symm
  | cons c w ih =>
      cases w' with
      | nil => cases length
      | cons c' w' =>
          obtain ⟨digit, others⟩ := List.forall_mem_cons.mp valid
          obtain ⟨digit', others'⟩ := List.forall_mem_cons.mp valid'
          have length := Nat.succ.inj length
          rw [value_cons, value_cons, ← length] at same
          have small := value_lt others
          have small' := value_lt others'
          rw [← length] at small'
          have positive : 0 < 10 ^ w.length := Nat.pow_pos (by decide)
          have first := congrArg (· / 10 ^ w.length) same
          have left := congrArg (· % 10 ^ w.length) same
          simp only [Nat.mul_add_div positive, Nat.div_eq_of_lt small, Nat.div_eq_of_lt small',
            Nat.add_zero] at first
          simp only [Nat.mul_add_mod, Nat.mod_eq_of_lt small, Nat.mod_eq_of_lt small'] at left
          have range := Grammar.isDigit_range digit
          have range' := Grammar.isDigit_range digit'
          have head : c = c' := Char.toNat_inj.mp (by omega)
          rw [head, ih others others' length left]

theorem length_ofNat_value_le (nonempty : w ≠ []) (valid : ∀ c ∈ w, c.isDigit = true) :
    (ofNat (value w)).length ≤ w.length :=
  (Nat.length_toDigits_le_iff (by decide) (List.length_pos_iff.mpr nonempty)).mpr (value_lt valid)

/-- The canonical text of its value is shorter than a numeral just if the numeral has a zero in
front of further digits. -/
theorem length_le_ofNat_value_iff (nonempty : w ≠ []) (valid : ∀ c ∈ w, c.isDigit = true) :
    w.length ≤ (ofNat (value w)).length ↔ (w.head? = some '0' → w = ['0']) := by
  obtain ⟨c, w, rfl⟩ := List.exists_cons_of_ne_nil nonempty
  obtain ⟨digit, others⟩ := List.forall_mem_cons.mp valid
  rw [List.head?_cons, Option.some_inj]
  cases w with
  | nil =>
      have some := List.length_pos_iff.mpr (ofNat_ne_nil (value [c]))
      exact iff_of_true some (congrArg (· :: []))
  | cons c' w =>
      have shorter : (ofNat (value (c :: c' :: w))).length ≤ (c' :: w).length ↔
          value (c :: c' :: w) < 10 ^ (c' :: w).length :=
        Nat.length_toDigits_le_iff (by decide) (Nat.succ_pos w.length)
      by_cases zero : c = '0'
      · subst zero
        have rest : value ('0' :: c' :: w) = value (c' :: w) :=
          (value_cons '0' (c' :: w)).trans (Nat.zero_add _)
        have short := shorter.mpr (rest ▸ value_lt others)
        refine iff_of_false (Nat.not_le.mpr (Nat.lt_succ_of_le short)) fun plain => ?_
        cases plain rfl
      · have range := Grammar.isDigit_range digit
        have other : c.toNat ≠ 48 := fun same => zero (Char.toNat_inj.mp same)
        have positive : 0 < c.toNat - 48 := by omega
        have large : 10 ^ (c' :: w).length ≤ value (c :: c' :: w) := by
          rw [value_cons]
          exact Nat.le_trans (Nat.le_mul_of_pos_right _ positive) (Nat.le_add_right _ _)
        have longer := Nat.not_le.mp (mt shorter.mp (Nat.not_lt.mpr large))
        exact iff_of_true longer fun same => False.elim (zero same)

/-- A numeral with no zero in front of further digits is the canonical text of its value. -/
theorem ofNat_value (nonempty : w ≠ []) (valid : ∀ c ∈ w, c.isDigit = true)
    (plain : w.head? = some '0' → w = ['0']) : ofNat (value w) = w := by
  have longer := (length_le_ofNat_value_iff nonempty valid).mpr plain
  have length := Nat.le_antisymm (length_ofNat_value_le nonempty valid) longer
  exact eq_of_value_eq (fun _ => isDigit_of_mem_ofNat) valid length (value_ofNat _)

end BlockCalc.Decimal

namespace BlockCalc.Grammar

/-! ## Numerals of a text -/

/-- The numerals of a text: its runs of digits, but for those in names. -/
def numerals : Text → List Text
  | [] => []
  | c :: s =>
    if c.isAlpha then numerals (s.dropWhile Char.isAlphanum)
    else if c.isDigit then (c :: s.takeWhile Char.isDigit) :: numerals (s.dropWhile Char.isDigit)
    else numerals s
termination_by s => s.length
decreasing_by
  · exact Nat.lt_succ_of_le (List.dropWhile_sublist Char.isAlphanum).length_le
  · exact Nat.lt_succ_of_le (List.dropWhile_sublist Char.isDigit).length_le
  · exact Nat.lt_succ_self s.length

/-- No numeral of a text has a zero in front of further digits. -/
def PlainNumerals (s : Text) : Prop := ∀ w ∈ numerals s, w.head? = some '0' → w = ['0']

instance (s : Text) : Decidable (PlainNumerals s) :=
  List.decidableBAll (fun w : Text => w.head? = some '0' → w = ['0']) (numerals s)

section
variable {s rest : Text}

theorem numerals_of_name {name : Text} (h : NameAt name s rest) : numerals s = numerals rest := by
  obtain ⟨rfl, valid, ends⟩ := h
  cases name with
  | nil => cases valid
  | cons c name =>
      obtain ⟨alpha, inside⟩ := isName_cons.mp valid
      have found := congrArg Prod.fst (span_eq_iff.mpr ⟨rfl, inside, ends⟩)
      rw [List.cons_append, numerals, if_pos alpha]
      exact congrArg numerals found

theorem numerals_of_numeral {w : Text} (h : NumeralAt w s rest) :
    numerals s = w :: numerals rest := by
  obtain ⟨rfl, nonempty, valid, ends⟩ := h
  cases w with
  | nil => exact False.elim (nonempty rfl)
  | cons c w =>
      obtain ⟨digit, inside⟩ := List.forall_mem_cons.mp valid
      have found := span_eq_iff.mpr ⟨rfl, inside, ends⟩
      simp only [span, Prod.mk.injEq] at found
      have alpha : ¬ c.isAlpha = true := by
        intro alpha
        rw [not_isDigit_of_isAlpha alpha] at digit
        cases digit
      rw [List.cons_append, numerals, if_neg alpha, if_pos digit, found.1, found.2]

theorem numerals_append {w : Text} (h : ∀ c ∈ w, c.isAlphanum = false) (rest : Text) :
    numerals (w ++ rest) = numerals rest := by
  induction w with
  | nil => rfl
  | cons c w ih =>
      obtain ⟨other, others⟩ := List.forall_mem_cons.mp h
      obtain ⟨alpha, digit⟩ := Bool.or_eq_false_iff.mp other
      rw [List.cons_append, numerals, if_neg (Bool.eq_false_iff.mp alpha),
        if_neg (Bool.eq_false_iff.mp digit), ih others]

end

end BlockCalc.Grammar
