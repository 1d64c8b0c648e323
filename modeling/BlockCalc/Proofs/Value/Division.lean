import BlockCalc.Value
/-! Division. The magnitudes are divided and the sign is put on afterwards, which cuts the quotient
off toward zero: what it leaves over is smaller than the divisor and on the side of the dividend.
Between two numbers of 32 bits the quotient is out of range for a single pair. -/
namespace BlockCalc
variable {a b q q' : Int}

/-- A quotient cut off toward zero, told by what it leaves over of the dividend `a`. -/
structure Truncates (a b q : Int) : Prop where
  small : (a - q * b).natAbs < b.natAbs
  signed : a - q * b = 0 ∨ (a - q * b).sign = a.sign

/-- The quotient of the magnitudes, negative where one of the two integers is and the other is
not. -/
def signedQuotient (a b : Int) : Int :=
  if a < 0 ↔ b < 0 then (a.natAbs / b.natAbs : Nat) else -(a.natAbs / b.natAbs : Nat)

theorem tdiv_eq_signedQuotient (a b : Int) : a.tdiv b = signedQuotient a b := by
  have nonnegative (n : Nat) : ¬ Int.ofNat n < 0 := Int.not_lt.mpr (Int.natCast_nonneg n)
  rw [signedQuotient]
  rcases a with m | m <;> rcases b with n | n
  · exact (if_pos (iff_of_false (nonnegative m) (nonnegative n))).symm
  · exact (if_neg fun same => nonnegative m (same.mpr (Int.negSucc_lt_zero n))).symm
  · exact (if_neg fun same => nonnegative n (same.mp (Int.negSucc_lt_zero m))).symm
  · exact (if_pos (iff_of_true (Int.negSucc_lt_zero m) (Int.negSucc_lt_zero n))).symm

/-! ## What is left over -/

/-- Back at the dividend the sign of the divisor has gone. -/
theorem signedQuotient_mul (a b : Int) :
    signedQuotient a b * b =
      if a < 0 then -((a.natAbs / b.natAbs * b.natAbs : Nat) : Int)
      else (a.natAbs / b.natAbs * b.natAbs : Nat) := by
  rw [signedQuotient, Int.natCast_mul]
  rcases Int.lt_or_le b 0 with negative | positive
  · rw [Int.ofNat_natAbs_of_nonpos (Int.le_of_lt negative), Int.mul_neg]
    by_cases below : a < 0
    · rw [if_pos (iff_of_true below negative), if_pos below, Int.neg_neg]
    · rw [if_neg fun same => below (same.mpr negative), if_neg below, Int.neg_mul]
  · rw [Int.natAbs_of_nonneg positive]
    have above : ¬ b < 0 := Int.not_lt.mpr positive
    by_cases below : a < 0
    · rw [if_neg fun same => above (same.mp below), if_pos below, Int.neg_mul]
    · rw [if_pos (iff_of_false below above), if_neg below]

/-- The remainder of the magnitudes, with the sign of the dividend. -/
theorem sub_signedQuotient_mul (a b : Int) :
    a - signedQuotient a b * b =
      if a < 0 then -((a.natAbs % b.natAbs : Nat) : Int) else (a.natAbs % b.natAbs : Nat) := by
  have whole := Nat.div_add_mod' a.natAbs b.natAbs
  rw [signedQuotient_mul]
  split <;> omega

theorem truncates_signedQuotient (divisor : b ≠ 0) (a : Int) :
    Truncates a b (signedQuotient a b) := by
  have less : a.natAbs % b.natAbs < b.natAbs := Nat.mod_lt _ (Int.natAbs_pos.mpr divisor)
  have left := sub_signedQuotient_mul a b
  constructor
  · rw [left]
    split <;> omega
  · by_cases none : a - signedQuotient a b * b = 0
    · exact .inl none
    · right
      split at left
      · next below =>
          rw [Int.sign_eq_neg_one_of_neg below, Int.sign_eq_neg_one_of_neg]
          omega
      · next above =>
          have positive : 0 < a := by
            refine Int.lt_iff_le_and_ne.mpr ⟨Int.not_lt.mp above, ?_⟩
            rintro rfl
            rw [Int.natAbs_zero, Nat.zero_mod] at left
            exact none left
          rw [Int.sign_eq_one_of_pos positive, Int.sign_eq_one_of_pos]
          omega

theorem Truncates.divisor_ne_zero (h : Truncates a b q) : b ≠ 0 := by
  rintro rfl
  exact Nat.not_lt_zero _ h.small

/-- What is left over is on the side of the dividend. -/
theorem Truncates.side (h : Truncates a b q) :
    (0 ≤ a → 0 ≤ a - q * b) ∧ (a ≤ 0 → a - q * b ≤ 0) := by
  rcases h.signed with none | same
  · rw [none]
    exact ⟨fun _ => Int.le_refl 0, fun _ => Int.le_refl 0⟩
  · rw [← Int.sign_nonneg_iff, ← same, Int.sign_nonneg_iff, ← Int.sign_nonpos_iff, ← same,
      Int.sign_nonpos_iff]
    exact ⟨id, id⟩

/-- What two such quotients leave over differs by less than the divisor. -/
theorem Truncates.unique (h : Truncates a b q) (h' : Truncates a b q') : q = q' := by
  have near : ((q - q') * b).natAbs < b.natAbs := by
    have small := h.small
    have small' := h'.small
    have side := h.side
    have side' := h'.side
    rw [Int.sub_mul]
    omega
  rw [Int.natAbs_mul] at near
  have none : (q - q').natAbs = 0 := by
    refine Nat.eq_zero_of_not_pos fun some => ?_
    exact Nat.not_lt.mpr (Nat.le_mul_of_pos_left b.natAbs some) near
  exact Int.eq_of_sub_eq_zero (Int.natAbs_eq_zero.mp none)

/-! ## The range -/

/-- A divisor other than one and minus one at least halves the magnitude; these two keep it. -/
theorem fits_signedQuotient_iff (fits : Fits a) (divisor : b ≠ 0) :
    Fits (signedQuotient a b) ↔ ¬ (a = leastNumber ∧ b = -1) := by
  rw [signedQuotient]
  unfold Fits leastNumber greatestNumber at *
  rcases Nat.lt_or_ge b.natAbs 2 with single | large
  · have one : b.natAbs = 1 := by omega
    rw [one, Nat.div_one]
    split <;> omega
  · have half : a.natAbs / b.natAbs ≤ a.natAbs / 2 := Nat.div_le_div_left large (by decide)
    generalize a.natAbs / b.natAbs = magnitude at half ⊢
    split <;> omega

namespace Op

theorem result?_div (divisor : b ≠ 0) (a : Int) : div.result? a b = some (signedQuotient a b) := by
  rw [result?, if_neg divisor, tdiv_eq_signedQuotient]

theorem div_apply_of_fits (divisor : b ≠ 0) (fits : Fits (signedQuotient a b)) :
    div.apply a b = .ok (.number (signedQuotient a b)) := by
  rw [apply, result?_div divisor]
  exact if_pos fits

theorem div_apply_of_misfit (divisor : b ≠ 0) (misfit : ¬ Fits (signedQuotient a b)) :
    div.apply a b = .error (.resultOutOfRange a .div b) := by
  rw [apply, result?_div divisor]
  exact if_neg misfit

theorem div_apply_zero (a : Int) : div.apply a 0 = .error .divisionByZero := rfl

theorem div_apply_eq_ok_iff {v : Value} :
    div.apply a b = .ok v ↔ ∃ q, v = .number q ∧ Truncates a b q ∧ Fits q := by
  by_cases zero : b = 0
  · subst zero
    rw [div_apply_zero]
    refine ⟨nofun, ?_⟩
    rintro ⟨q, -, cut, -⟩
    exact False.elim (cut.divisor_ne_zero rfl)
  · have cut := truncates_signedQuotient zero a
    by_cases fits : Fits (signedQuotient a b)
    · rw [div_apply_of_fits zero fits]
      constructor
      · rintro ⟨⟩
        exact ⟨_, rfl, cut, fits⟩
      · rintro ⟨q, rfl, cut', -⟩
        rw [cut.unique cut']
    · rw [div_apply_of_misfit zero fits]
      refine ⟨nofun, ?_⟩
      rintro ⟨q, -, cut', fits'⟩
      rw [cut'.unique cut] at fits'
      exact False.elim (fits fits')

theorem div_apply_eq_error_iff (fits : Fits a) {e : EvalError} :
    div.apply a b = .error e ↔
      b = 0 ∧ e = .divisionByZero ∨
        a = leastNumber ∧ b = -1 ∧ e = .resultOutOfRange a .div b := by
  by_cases zero : b = 0
  · subst zero
    rw [div_apply_zero]
    constructor
    · rintro ⟨⟩
      exact .inl ⟨rfl, rfl⟩
    · rintro (⟨-, rfl⟩ | ⟨-, one, -⟩)
      · rfl
      · cases one
  · have range := fits_signedQuotient_iff fits zero
    by_cases overflow : a = leastNumber ∧ b = -1
    · rw [div_apply_of_misfit zero fun inside => range.mp inside overflow]
      constructor
      · rintro ⟨⟩
        exact .inr ⟨overflow.1, overflow.2, rfl⟩
      · rintro (⟨same, -⟩ | ⟨-, -, rfl⟩)
        · exact False.elim (zero same)
        · rfl
    · rw [div_apply_of_fits zero (range.mpr overflow)]
      refine ⟨nofun, ?_⟩
      rintro (⟨same, -⟩ | ⟨least, one, -⟩)
      · exact False.elim (zero same)
      · exact False.elim (overflow ⟨least, one⟩)

/-- A value of a division is the quotient cut off toward zero, as long as that fits. Between numbers
of 32 bits only the quotient by zero and that of the least number by minus one are errors. -/
theorem div_truncates (a b : Int) :
    (∀ v, div.apply a b = .ok v ↔ ∃ q, v = .number q ∧ Truncates a b q ∧ Fits q) ∧
    (∀ q q', Truncates a b q → Truncates a b q' → q = q') ∧
    (Fits a → Fits b → ∀ e, div.apply a b = .error e ↔
      b = 0 ∧ e = .divisionByZero ∨
        a = leastNumber ∧ b = -1 ∧ e = .resultOutOfRange a .div b) :=
  ⟨fun _ => div_apply_eq_ok_iff, fun _ _ h h' => h.unique h',
    fun fits _ _ => div_apply_eq_error_iff fits⟩

/-- Of minus seven by two the quotient is minus three and not minus four. The least number has one
by two, but none by minus one. -/
theorem div_truncates_negative :
    div.apply (-7) 2 = .ok (.number (-3)) ∧ ¬ Truncates (-7) 2 (-4) ∧
      div.apply leastNumber (-1) = .error (.resultOutOfRange leastNumber .div (-1)) ∧
      ∀ e, div.apply leastNumber 2 ≠ .error e := by
  obtain ⟨value, unique, -⟩ := div_truncates (-7) 2
  obtain ⟨-, -, overflow⟩ := div_truncates leastNumber (-1)
  obtain ⟨-, -, halves⟩ := div_truncates leastNumber 2
  have cut : Truncates (-7) 2 (-3) := ⟨by decide, .inr (by decide)⟩
  refine ⟨(value _).mpr ⟨-3, rfl, cut, by decide⟩, ?_, ?_, ?_⟩
  · intro cut'
    cases unique _ _ cut cut'
  · exact (overflow (by decide) (by decide) _).mpr (.inr ⟨rfl, rfl, rfl⟩)
  · intro e failed
    rcases (halves (by decide) (by decide) e).mp failed with ⟨zero, -⟩ | ⟨-, one, -⟩
    · cases zero
    · cases one

end Op
end BlockCalc
