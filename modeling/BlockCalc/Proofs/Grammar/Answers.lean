import BlockCalc.Grammar.Rules
/-! How the answers of rules are put together. A step of a rule, an alternative and a repetition
each succeed or fail for reasons of their parts alone, and these are named here once. -/
namespace BlockCalc.Grammar
variable {α β ε : Type}

instance decidableEqAnswer [DecidableEq ε] [DecidableEq α] : DecidableEq (Except ε α)
  | .ok a, .ok b => decidable_of_iff (a = b) ⟨congrArg _, Except.ok.inj⟩
  | .error d, .error e => decidable_of_iff (d = e) ⟨congrArg _, Except.error.inj⟩
  | .ok _, .error _ | .error _, .ok _ => isFalse fun same => nomatch same

theorem bind_eq_ok_iff {x : Except ε α} {f : α → Except ε β} {b : β} :
    x >>= f = .ok b ↔ ∃ a, x = .ok a ∧ f a = .ok b := by
  cases x with
  | error e =>
      simp only [bind, Except.bind, reduceCtorEq, false_and, exists_false]
  | ok a =>
      simp only [bind, Except.bind, Except.ok.injEq]
      exact ⟨fun h => ⟨a, rfl, h⟩, fun ⟨_, same, h⟩ => same ▸ h⟩

theorem bind_eq_error_iff {x : Except ε α} {f : α → Except ε β} {e : ε} :
    x >>= f = .error e ↔ x = .error e ∨ ∃ a, x = .ok a ∧ f a = .error e := by
  cases x with
  | error d =>
      simp only [bind, Except.bind, Except.error.injEq, reduceCtorEq, false_and, exists_false,
        or_false]
  | ok a =>
      simp only [bind, Except.bind, reduceCtorEq, false_or, Except.ok.injEq]
      exact ⟨fun h => ⟨a, rfl, h⟩, fun ⟨_, same, h⟩ => same ▸ h⟩

/-- An answer that can only fail by a mismatch, so that the caller may go on differently. -/
def Yields (answer : Except Failure α) : Prop :=
  ∀ failure, answer = .error failure → ∃ e, failure = .mismatch e

theorem Yields.ok (a : α) : Yields (.ok a) := by
  intro failure h
  cases h

theorem Yields.mismatch (e : ParseError) : Yields (.error (.mismatch e) : Except Failure α) := by
  intro failure h
  exact ⟨e, (Except.error.inj h).symm⟩

theorem Yields.bind {x : Except Failure α} {f : α → Except Failure β} (hx : Yields x)
    (hf : ∀ a, Yields (f a)) : Yields (x >>= f) := by
  intro failure h
  rcases bind_eq_error_iff.mp h with h | ⟨a, -, h⟩
  · exact hx failure h
  · exact hf a failure h

theorem Yields.cases {answer : Except Failure α} (h : Yields answer) :
    (∃ a, answer = .ok a) ∨ ∃ e, answer = .error (.mismatch e) := by
  cases hx : answer with
  | ok a => exact .inl ⟨a, rfl⟩
  | error failure =>
      obtain ⟨e, rfl⟩ := h failure hx
      exact .inr ⟨e, rfl⟩

section
variable {first second : Rule α} {s : Text}

theorem orElse_of_mismatch {e : ParseError} (h : first s = .error (.mismatch e)) :
    orElse first second s = second s := by
  simp only [orElse, h]

theorem orElse_of_ok {a : Text × α} (h : first s = .ok a) : orElse first second s = .ok a := by
  simp only [orElse, h]

theorem orElse_of_failure {failure : Failure} (h : first s = .error failure)
    (stops : ∀ e, failure ≠ .mismatch e) : orElse first second s = .error failure := by
  cases failure with
  | mismatch e => exact False.elim (stops e rfl)
  | literalTooLong n => simp only [orElse, h]
  | tooDeep => simp only [orElse, h]

/-- The second alternative is heard only after a mismatch of the first. -/
theorem orElse_eq_ok_iff {a : Text × α} :
    orElse first second s = .ok a ↔
      first s = .ok a ∨ ∃ e, first s = .error (.mismatch e) ∧ second s = .ok a := by
  cases h : first s with
  | ok b =>
      simp only [orElse_of_ok h, Except.ok.injEq, reduceCtorEq, false_and, exists_false, or_false]
  | error failure =>
      cases failure with
      | mismatch e =>
          simp only [orElse_of_mismatch h, reduceCtorEq, false_or, Except.error.injEq,
            Failure.mismatch.injEq]
          exact ⟨fun h => ⟨e, rfl, h⟩, fun ⟨_, _, h⟩ => h⟩
      | literalTooLong n =>
          simp only [orElse, h, reduceCtorEq, Except.error.injEq, false_and, exists_false, or_self]
      | tooDeep =>
          simp only [orElse, h, reduceCtorEq, Except.error.injEq, false_and, exists_false, or_self]

theorem orElse_eq_error {failure : Failure} (h : orElse first second s = .error failure) :
    first s = .error failure ∨ second s = .error failure := by
  unfold orElse at h
  split at h
  · exact .inr h
  · exact .inl h

end

section
variable {rule : Rule α} {s rest : Text} {item : α}

theorem length_trimStart_le (s : Text) : (Text.trimStart s).length ≤ s.length :=
  (List.dropWhile_sublist isBlank).length_le

theorem many_of_mismatch {e : ParseError} (h : rule s = .error (.mismatch e)) :
    many rule s = .ok (s, []) := by
  rw [many, h]

theorem many_of_failure {failure : Failure} (h : rule s = .error failure)
    (stops : ∀ e, failure ≠ .mismatch e) : many rule s = .error failure := by
  rw [many, h]
  cases failure with
  | mismatch e => exact False.elim (stops e rfl)
  | literalTooLong n => rfl
  | tooDeep => rfl

theorem many_of_tooDeep (h : rule s = .error .tooDeep) : many rule s = .error .tooDeep := by
  refine many_of_failure h ?_
  intro e other
  cases other

/-- Behind an item the repetition goes on where the next blank characters end. -/
theorem many_of_ok (h : rule s = .ok (rest, item)) (shorter : rest.length < s.length) :
    many rule s =
      (many rule (Text.trimStart rest)).map fun answer => (answer.1, item :: answer.2) := by
  have next : (Text.trimStart rest).length < s.length :=
    Nat.lt_of_le_of_lt (length_trimStart_le rest) shorter
  rw [many, h]
  simp only [next, if_true]
  cases many rule (Text.trimStart rest) with
  | error failure => rfl
  | ok answer => rfl

/-- What holds where the rule mismatches, and is handed on by an item to the texts before it, holds
of all items that are read. -/
theorem many_ok_induction {P : List α → Text → Text → Prop}
    (consumes : ∀ {s rest item}, rule s = .ok (rest, item) → rest.length < s.length)
    (none : ∀ {s e}, rule s = .error (.mismatch e) → P [] s s)
    (more : ∀ {s s₁ rest item items}, rule s = .ok (s₁, item) →
      P items (Text.trimStart s₁) rest → P (item :: items) s rest)
    {items : List α} (h : many rule s = .ok (rest, items)) : P items s rest := by
  fun_induction many rule s generalizing rest items with
  | case1 s e hs =>
      cases h
      exact none hs
  | case2 => cases h
  | case3 => cases h
  | case4 s rest₁ item hs =>
      rename_i hm ih
      cases h
      exact more hs (ih hm)
  | case5 s rest₁ item hs =>
      rename_i long
      exact False.elim (long (Nat.lt_of_le_of_lt (length_trimStart_le rest₁) (consumes hs)))

/-- A repetition fails only where its rule does, in a text that is left after some items. -/
theorem many_error_induction {P : Text → Prop} {failure : Failure}
    (here : ∀ s, rule s = .error failure → (∀ e, failure ≠ .mismatch e) → P s)
    (later : ∀ {s s₁ item}, rule s = .ok (s₁, item) → P (Text.trimStart s₁) → P s)
    (h : many rule s = .error failure) : P s := by
  fun_induction many rule s with
  | case1 => cases h
  | case2 s other stops hs =>
      cases h
      exact here s hs fun e same => stops e (same ▸ rfl)
  | case3 s rest₁ item hs =>
      rename_i hm ih
      cases h
      exact later hs (ih hm)
  | case4 => cases h
  | case5 => cases h

end
end BlockCalc.Grammar
