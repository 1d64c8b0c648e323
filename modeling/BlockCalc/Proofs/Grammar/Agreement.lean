import BlockCalc.Proofs.Grammar.Answers
/-! Two readings side by side. Rules that are put together in the same way give answers that agree,
if their parts do on related texts. Failures need not agree fully where an alternative takes over:
there it is enough that both are mismatches. -/
namespace BlockCalc.Grammar

/-- Failures that a caller who has an alternative cannot tell apart. -/
inductive Loose : Failure → Failure → Prop
  | mismatch (d e) : Loose (.mismatch d) (.mismatch e)
  | stop {f} : (∀ e, f ≠ .mismatch e) → Loose f f

theorem Loose.refl (f : Failure) : Loose f f := by
  cases f with
  | mismatch e => exact .mismatch e e
  | literalTooLong n => exact .stop fun _ other => nomatch other
  | tooDeep => exact .stop fun _ other => nomatch other

/-- Both succeed with related results, or both fail with related failures. -/
inductive Agree {α : Type} (E : Failure → Failure → Prop) (R : α → α → Prop) :
    Except Failure α → Except Failure α → Prop
  | ok {a b} : R a b → Agree E R (.ok a) (.ok b)
  | error {f g} : E f g → Agree E R (.error f) (.error g)

variable {α β : Type} {E : Failure → Failure → Prop} {R : α → α → Prop} {S : β → β → Prop}

theorem Agree.loose {x y : Except Failure α} (h : Agree Eq R x y) : Agree Loose R x y := by
  cases h with
  | ok related => exact .ok related
  | error same =>
      cases same
      exact .error (.refl _)

theorem Agree.bind {x y : Except Failure α} {f g : α → Except Failure β} (h : Agree E R x y)
    (step : ∀ {a b}, R a b → Agree E S (f a) (g b)) : Agree E S (x >>= f) (y >>= g) := by
  cases h with
  | ok related => exact step related
  | error related => exact .error related

theorem Agree.map {x y : Except Failure α} {f g : α → β} (h : Agree E R x y)
    (step : ∀ {a b}, R a b → S (f a) (g b)) : Agree E S (x.map f) (y.map g) := by
  cases h with
  | ok related => exact .ok (step related)
  | error related => exact .error related

def Beside (T : Text → Text → Prop) (x y : Text × α) : Prop := T x.1 y.1 ∧ x.2 = y.2

section
variable {first first' second second' : Rule α} {s s' : Text}

theorem Agree.orElse {R : Text × α → Text × α → Prop} (refl : ∀ f, E f f)
    (h : Agree Loose R (first s) (first' s')) (h' : Agree E R (second s) (second' s')) :
    Agree E R (orElse first second s) (orElse first' second' s') := by
  generalize hx : first s = x at h
  generalize hy : first' s' = y at h
  cases h with
  | ok related =>
      rw [orElse_of_ok hx, orElse_of_ok hy]
      exact .ok related
  | error loose =>
      cases loose with
      | mismatch d e =>
          rw [orElse_of_mismatch hx, orElse_of_mismatch hy]
          exact h'
      | stop stops =>
          rw [orElse_of_failure hx stops, orElse_of_failure hy stops]
          exact .error (refl _)

/-- Repetitions agree fully, as a mismatch of the rule only ends them. -/
theorem Agree.many {T : Text → Text → Prop} {rule rule' : Rule α}
    (trims : ∀ {s s'}, T s s' → T (Text.trimStart s) (Text.trimStart s'))
    (consumes : ∀ {s rest item}, rule s = .ok (rest, item) → rest.length < s.length)
    (consumes' : ∀ {s rest item}, rule' s = .ok (rest, item) → rest.length < s.length)
    (step : ∀ {s s'}, T s s' → Agree Loose (Beside T) (rule s) (rule' s')) (h : T s s') :
    Agree Eq (Beside T) (many rule s) (many rule' s') := by
  induction n : s.length using Nat.strongRecOn generalizing s s' with
  | ind n ih =>
      subst n
      have here := step h
      generalize hx : rule s = x at here
      generalize hy : rule' s' = y at here
      cases here with
      | @ok a b related =>
          obtain ⟨rest, item⟩ := a
          obtain ⟨rest', item'⟩ := b
          obtain ⟨left, rfl⟩ : T rest rest' ∧ item = item' := related
          have shorter := Nat.lt_of_le_of_lt (length_trimStart_le rest) (consumes hx)
          have later := ih _ shorter (trims left) rfl
          rw [many_of_ok hx (consumes hx), many_of_ok hy (consumes' hy)]
          exact later.map fun related => ⟨related.1, congrArg (item :: ·) related.2⟩
      | error loose =>
          cases loose with
          | mismatch d e =>
              rw [many_of_mismatch hx, many_of_mismatch hy]
              exact .ok ⟨h, rfl⟩
          | stop stops =>
              rw [many_of_failure hx stops, many_of_failure hy stops]
              exact .error rfl

end
end BlockCalc.Grammar
