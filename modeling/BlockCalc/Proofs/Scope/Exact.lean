import BlockCalc.Proofs.Grammar.Soundness
import BlockCalc.Proofs.Scope.Noninterference
/-! Evaluation beside exact evaluation. The exact evaluation visits a tree in the same order and with
the same scopes, but its numbers have any size and no result is refused for it; it keeps account of
the operations that it carries out. Evaluation agrees with it as long as these results fit, and
stops at the first that does not, whatever the exact evaluation finds behind it. -/
namespace BlockCalc
open Grammar (wellFormed_of_parseWithin)

/-- An operation that was carried out on numbers of any size. -/
structure Performed where
  lhs : Int
  op : Op
  rhs : Int
  result : Int
  deriving DecidableEq, Repr

/-- The operations carried out, in order, then the answer and the scope as it is left. -/
structure ExactRun where
  performed : List Performed
  answer : Except EvalError Value
  scope : Scope

/-- A quotient is cut off toward zero; nothing is divided by zero. -/
def Op.exact : Op → Int → Int → Int
  | .add, m, n => m + n
  | .sub, m, n => m - n
  | .mul, m, n => m * n
  | .div, m, n => m.tdiv n

namespace ExactRun

def andThen (run : ExactRun) (next : Value → Scope → ExactRun) : ExactRun :=
  match run.answer with
  | .error _ => run
  | .ok v =>
    let later := next v run.scope
    ⟨run.performed ++ later.performed, later.answer, later.scope⟩

def popped (run : ExactRun) : ExactRun := { run with scope := run.scope.pop }

def operate (op : Op) (scope : Scope) : Value → Value → ExactRun
  | .number m, .number n =>
    if op = .div ∧ n = 0 then ⟨[], .error .divisionByZero, scope⟩
    else ⟨[⟨m, op, n, op.exact m n⟩], .ok (.number (op.exact m n)), scope⟩
  | _, _ => ⟨[], .error .operandNotNumber, scope⟩

/-- The first operation whose result is no number of 32 bits. -/
def firstMisfit (run : ExactRun) : Option Performed :=
  run.performed.find? fun p => decide (¬ Fits p.result)

end ExactRun

mutual

def Expr.exact : Expr → Scope → ExactRun
  | .number n, scope => ⟨[], .ok (.number n), scope⟩
  | .operation lhs rhs op, scope =>
    (lhs.exact scope).andThen fun l scope =>
      (rhs.exact scope).andThen fun r scope => .operate op scope l r
  | .usage name, scope => ⟨[], scope.binding name, scope⟩
  | .block stmts, scope => (Stmt.exactAll stmts scope.push).popped

def Stmt.exact : Stmt → Scope → ExactRun
  | .binding name value, scope =>
    (value.exact scope).andThen fun v scope => ⟨[], .ok .unit, scope.store name (.binding v)⟩
  | .function name params body, scope =>
    ⟨[], .ok .unit, scope.store name (.function params body)⟩
  | .expr e, scope => e.exact scope

def Stmt.exactAll : List Stmt → Scope → ExactRun
  | [], scope => ⟨[], .ok .unit, scope⟩
  | t :: ts, scope =>
    (t.exact scope).andThen fun v scope =>
      match ts with
      | [] => ⟨[], .ok v, scope⟩
      | _ :: _ => Stmt.exactAll ts scope

end

/-! ## One run beside another -/

def Unsized (answer : Except EvalError Value) : Prop :=
  ∀ m op n, answer ≠ .error (.resultOutOfRange m op n)

/-- An evaluation beside an exact one: both are the same and all results fit, or the evaluation
stopped at the first result that does not. -/
inductive Checks : Except EvalError Value × Scope → ExactRun → Prop
  | same {performed answer scope} : (∀ p ∈ performed, Fits p.result) → Unsized answer →
      Checks (answer, scope) ⟨performed, answer, scope⟩
  | stopped {before p after answer scope last} : (∀ q ∈ before, Fits q.result) →
      ¬ Fits p.result → Checks (.error (.resultOutOfRange p.lhs p.op p.rhs), scope)
        ⟨before ++ p :: after, answer, last⟩

def evalThen (x : Except EvalError Value × Scope)
    (next : Value → Scope → Except EvalError Value × Scope) : Except EvalError Value × Scope :=
  match x with
  | (.error e, scope) => (.error e, scope)
  | (.ok v, scope) => next v scope

section
variable {x : Except EvalError Value × Scope} {run : ExactRun}
  {f : Value → Scope → Except EvalError Value × Scope} {g : Value → Scope → ExactRun}

theorem Checks.value (v : Value) (scope : Scope) : Checks (.ok v, scope) ⟨[], .ok v, scope⟩ := by
  apply Checks.same
  · exact List.forall_mem_nil _
  · intro m op n same
    cases same

theorem Checks.andThen (h : Checks x run) (later : ∀ v scope, Checks (f v scope) (g v scope)) :
    Checks (evalThen x f) (run.andThen g) := by
  cases h with
  | @same performed answer scope fit unsized =>
      cases answer with
      | error e => exact .same fit unsized
      | ok v =>
          simp only [evalThen, ExactRun.andThen]
          generalize f v scope = y, g v scope = run, later v scope = h
          cases h with
          | same fit' unsized' => exact .same (List.forall_mem_append.mpr ⟨fit, fit'⟩) unsized'
          | stopped fit' misfit =>
              rw [← List.append_assoc]
              exact .stopped (List.forall_mem_append.mpr ⟨fit, fit'⟩) misfit
  | @stopped before p after answer scope last fit misfit =>
      cases answer with
      | error e => exact .stopped fit misfit
      | ok v =>
          -- The exact evaluation goes on with a number that the other never saw.
          simp only [ExactRun.andThen, List.append_assoc, List.cons_append]
          exact .stopped fit misfit

theorem Checks.popped (h : Checks x run) : Checks (x.1, x.2.pop) run.popped := by
  cases h with
  | same fit unsized => exact .same fit unsized
  | stopped fit misfit => exact .stopped fit misfit

end

theorem Op.apply_eq (op : Op) (m n : Int) :
    op.apply m n =
      if op = .div ∧ n = 0 then .error .divisionByZero
      else if Fits (op.exact m n) then .ok (.number (op.exact m n))
      else .error (.resultOutOfRange m op n) := by
  cases op with
  | div =>
      by_cases zero : n = 0
      · simp only [apply, result?, zero, and_self, if_true]
      · have other : ¬ (div = div ∧ n = 0) := fun h => zero h.2
        rw [apply, result?, if_neg zero, if_neg other]
        rfl
  | _ => rfl

theorem checks_operate (op : Op) (scope : Scope) (l r : Value) :
    Checks (op.onValues l r, scope) (.operate op scope l r) := by
  have operand : Checks (.error .operandNotNumber, scope) ⟨[], .error .operandNotNumber, scope⟩ := by
    apply Checks.same
    · exact List.forall_mem_nil _
    · intro m op n same
      cases same
  cases l with
  | unit => exact operand
  | number m =>
      cases r with
      | unit => exact operand
      | number n =>
          simp only [Op.onValues, Op.apply_eq, ExactRun.operate]
          split
          · apply Checks.same
            · exact List.forall_mem_nil _
            · intro m op n same
              cases same
          · split
            · next fit =>
                apply Checks.same
                · exact List.forall_mem_singleton.mpr fit
                · intro m op n same
                  cases same
            · next misfit =>
                have none : ∀ p ∈ ([] : List Performed), Fits p.result := List.forall_mem_nil _
                have misfit : ¬ Fits (Performed.mk m op n (op.exact m n)).result := misfit
                apply Checks.stopped none misfit

/-! ## The two evaluations of a tree -/

theorem Expr.eval_operation_then (lhs rhs : Expr) (op : Op) (scope : Scope) :
    (Expr.operation lhs rhs op).eval scope =
      evalThen (lhs.eval scope) fun l scope =>
        evalThen (rhs.eval scope) fun r scope => (op.onValues l r, scope) := by
  rw [Expr.eval]
  generalize lhs.eval scope = x
  obtain ⟨answer, middle⟩ := x
  cases answer with
  | error e => rfl
  | ok l =>
      dsimp only [evalThen]
      generalize rhs.eval middle = y
      obtain ⟨answer, last⟩ := y
      cases answer with
      | error e => rfl
      | ok r => cases l <;> cases r <;> rfl

theorem Stmt.eval_binding_then (name : Text) (value : Expr) (scope : Scope) :
    (Stmt.binding name value).eval scope =
      evalThen (value.eval scope) fun v scope => (.ok .unit, scope.store name (.binding v)) := by
  rw [Stmt.eval]
  generalize value.eval scope = x
  obtain ⟨answer, middle⟩ := x
  cases answer <;> rfl

theorem Stmt.evalAll_cons_then (t : Stmt) (ts : List Stmt) (scope : Scope) :
    Stmt.evalAll (t :: ts) scope =
      evalThen (t.eval scope) fun v scope =>
        match ts with
        | [] => (.ok v, scope)
        | _ :: _ => Stmt.evalAll ts scope := by
  rw [Stmt.evalAll]
  generalize t.eval scope = x
  obtain ⟨answer, middle⟩ := x
  cases answer <;> rfl

mutual

theorem Expr.checks (e : Expr) (h : e.wellFormed = true) (scope : Scope) :
    Checks (e.eval scope) (e.exact scope) := by
  cases e with
  | number n =>
      rw [Expr.eval, Expr.exact, Value.ofInt, if_pos (Expr.fits_of_wellFormed h)]
      exact .value _ scope
  | operation lhs rhs op =>
      simp only [Expr.wellFormed, Bool.and_eq_true] at h
      rw [Expr.eval_operation_then, Expr.exact]
      apply (lhs.checks h.1.2 scope).andThen
      intro l scope
      apply (rhs.checks h.2 scope).andThen
      intro r scope
      exact checks_operate op scope l r
  | usage name =>
      apply Checks.same
      · exact List.forall_mem_nil _
      · intro m op n same
        cases Scope.binding_error same
  | block stmts => exact (Stmt.checksAll stmts h scope.push).popped

theorem Stmt.checks (t : Stmt) (h : t.wellFormed = true) (scope : Scope) :
    Checks (t.eval scope) (t.exact scope) := by
  cases t with
  | binding name value =>
      simp only [Stmt.wellFormed, Bool.and_eq_true] at h
      rw [Stmt.eval_binding_then, Stmt.exact]
      apply (value.checks h.2 scope).andThen
      intro v scope
      exact .value .unit _
  | function name params body => exact .value .unit _
  | expr e => exact e.checks h scope

theorem Stmt.checksAll (ts : List Stmt) (h : Stmt.allWellFormed ts = true) (scope : Scope) :
    Checks (Stmt.evalAll ts scope) (Stmt.exactAll ts scope) := by
  cases ts with
  | nil => exact .value .unit scope
  | cons t ts =>
      simp only [Stmt.allWellFormed, Bool.and_eq_true] at h
      rw [Stmt.evalAll_cons_then, Stmt.exactAll]
      apply (t.checks h.1 scope).andThen
      intro v scope
      cases ts with
      | nil => exact .value v scope
      | cons t' ts => exact Stmt.checksAll (t' :: ts) h.2 scope

end

/-! ## What an evaluation says of the exact one -/

section
variable {x : Except EvalError Value × Scope} {run : ExactRun}

theorem Checks.value_iff (h : Checks x run) (v : Value) (next : Scope) :
    x = (.ok v, next) ↔
      run.answer = .ok v ∧ run.scope = next ∧ ∀ p ∈ run.performed, Fits p.result := by
  cases h with
  | same fit unsized =>
      constructor
      · intro same
        cases same
        exact ⟨rfl, rfl, fit⟩
      · rintro ⟨rfl, rfl, -⟩
        rfl
  | stopped fit misfit =>
      constructor
      · intro same
        cases same
      · rintro ⟨-, -, all⟩
        exact False.elim (misfit (all _ (List.mem_append_right _ List.mem_cons_self)))

theorem Checks.misfit_iff (h : Checks x run) (m : Int) (op : Op) (n : Int) :
    x.1 = .error (.resultOutOfRange m op n) ↔
      ∃ result, run.firstMisfit = some ⟨m, op, n, result⟩ := by
  cases h with
  | same fit unsized =>
      constructor
      · intro same
        exact False.elim (unsized m op n same)
      · rintro ⟨result, found⟩
        have member := List.mem_of_find?_eq_some found
        have misfit := (List.find?_eq_some_iff_append.mp found).1
        exact False.elim (of_decide_eq_true misfit (fit _ member))
  | @stopped before p after answer scope last fit misfit =>
      have found : ExactRun.firstMisfit ⟨before ++ p :: after, answer, last⟩ = some p := by
        refine List.find?_eq_some_iff_append.mpr ⟨decide_eq_true misfit, before, after, rfl, ?_⟩
        intro q member
        simp only [fit q member, not_true_eq_false, decide_false, Bool.not_false]
      rw [found]
      obtain ⟨lhs, op', rhs, result⟩ := p
      constructor
      · intro same
        cases same
        exact ⟨result, rfl⟩
      · rintro ⟨result', same⟩
        cases same
        rfl

theorem Checks.error_iff (h : Checks x run) {e : EvalError}
    (other : ∀ m op n, e ≠ .resultOutOfRange m op n) :
    x.1 = .error e ↔ run.answer = .error e ∧ ∀ p ∈ run.performed, Fits p.result := by
  cases h with
  | same fit unsized => exact ⟨fun same => ⟨same, fit⟩, And.left⟩
  | stopped fit misfit =>
      constructor
      · intro same
        exact False.elim (other _ _ _ (Except.error.inj same).symm)
      · rintro ⟨-, all⟩
        exact False.elim (misfit (all _ (List.mem_append_right _ List.mem_cons_self)))

end

/-- A statement that was read does what the exact evaluation does, as long as the results fit; where
one does not, the first of these is the error. -/
theorem eval_refines_exact {limit : Nat} {source : Text} {t : Stmt}
    (read : parseWithin limit source = .ok t) (scope : Scope) :
    (∀ v next, t.eval scope = (.ok v, next) ↔
      (t.exact scope).answer = .ok v ∧ (t.exact scope).scope = next ∧
        ∀ p ∈ (t.exact scope).performed, Fits p.result) ∧
    (∀ m op n, (t.eval scope).1 = .error (.resultOutOfRange m op n) ↔
      ∃ result, (t.exact scope).firstMisfit = some ⟨m, op, n, result⟩) ∧
    (∀ e, (∀ m op n, e ≠ .resultOutOfRange m op n) → ((t.eval scope).1 = .error e ↔
      (t.exact scope).answer = .error e ∧
        ∀ p ∈ (t.exact scope).performed, Fits p.result)) := by
  have valid := wellFormed_of_parseWithin read
  have beside := t.checks valid scope
  exact ⟨beside.value_iff, beside.misfit_iff, fun e other => beside.error_iff other⟩

/-- The exact evaluation divides by zero only after a sum that does not fit, at which the other
stops; and a quotient of numbers in range may be the one that does not fit. -/
theorem eval_refines_exact_competing :
    ((Stmt.binding ['x'] (.block [.binding ['a'] (.operation (.number 2147483647) (.number 1) .add),
        .expr (.operation (.usage ['a']) (.number 0) .div)])).eval .root).1 =
      .error (.resultOutOfRange 2147483647 .add 1) ∧
    ((Stmt.expr (.operation (.usage ['m']) (.block [.expr (.operation (.number 0) (.number 1) .sub)])
        .div)).eval (Scope.root.store ['m'] (.binding (.number (-2147483648))))).1 =
      .error (.resultOutOfRange (-2147483648) .div (-1)) := by
  have first : parse "let x = \x7b let a = 2147483647 + 1\n a / 0 \x7d".toList = .ok (.binding ['x']
      (.block [.binding ['a'] (.operation (.number 2147483647) (.number 1) .add),
        .expr (.operation (.usage ['a']) (.number 0) .div)])) := by decide +kernel
  have second : parse "m / \x7b 0 - 1 \x7d".toList = .ok (.expr (.operation (.usage ['m'])
      (.block [.expr (.operation (.number 0) (.number 1) .sub)]) .div)) := by decide +kernel
  constructor
  · exact ((eval_refines_exact first .root).2.1 2147483647 .add 1).mpr ⟨2147483648, by decide⟩
  · apply ((eval_refines_exact second _).2.1 (-2147483648) .div (-1)).mpr
    exact ⟨2147483648, by decide⟩

end BlockCalc
