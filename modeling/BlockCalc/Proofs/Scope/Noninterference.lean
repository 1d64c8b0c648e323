import BlockCalc.Proofs.Grammar.Answers
import BlockCalc.Proofs.Scope.Effects
/-! What an evaluation depends on. Of a scope it sees the values bound to the names that it uses, and
nothing else: not how many scopes there are, not what else is stored in them. Of a tree it does not
see the parameters and bodies of functions, which are stored without a look. The names used are
those outside function bodies, and they are taken to agree even where a block stores its own. -/
namespace BlockCalc

mutual

/-- The names that an expression uses, those in function bodies left out. -/
def Expr.usages : Expr → List Text
  | .number _ => []
  | .operation lhs rhs _ => lhs.usages ++ rhs.usages
  | .usage name => [name]
  | .block stmts => Stmt.usagesOfAll stmts

def Stmt.usages : Stmt → List Text
  | .binding _ value => value.usages
  | .function _ _ _ => []
  | .expr e => e.usages

def Stmt.usagesOfAll : List Stmt → List Text
  | [] => []
  | t :: ts => t.usages ++ Stmt.usagesOfAll ts

end

/-- A body that stands for any other. -/
def Stmt.anyBody : Stmt := .expr (.block [])

mutual

/-- An expression with every function in it stripped of its parameters and body. -/
def Expr.outline : Expr → Expr
  | .number n => .number n
  | .operation lhs rhs op => .operation lhs.outline rhs.outline op
  | .usage name => .usage name
  | .block stmts => .block (Stmt.outlineAll stmts)

def Stmt.outline : Stmt → Stmt
  | .binding name value => .binding name value.outline
  | .function name _ _ => .function name [] .anyBody
  | .expr e => .expr e.outline

def Stmt.outlineAll : List Stmt → List Stmt
  | [] => []
  | t :: ts => t.outline :: Stmt.outlineAll ts

end

def Info.outline : Info → Info
  | .binding value => .binding value
  | .function _ _ => .function [] .anyBody

def outlineEntry (entry : Text × Info) : Text × Info := (entry.1, entry.2.outline)

def Info.bound (name : Text) : Info → Except EvalError Value
  | .binding value => .ok value
  | .function _ _ => .error (.missingBinding name)

/-! ## Scopes that agree on names -/

namespace Scope

/-- Each of the names is bound to the same value in both scopes, or in neither. -/
def Agree (names : List Text) (E F : Scope) : Prop :=
  ∀ name ∈ names, ∀ v, E.binding name = .ok v ↔ F.binding name = .ok v

variable {names : List Text} {E F : Scope}

theorem binding_push (scope : Scope) (name : Text) :
    scope.push.binding name = scope.binding name := by
  simp only [binding, lookup_push]

theorem binding_store (scope : Scope) (name other : Text) (info : Info) :
    (scope.store name info).binding other =
      if name = other then info.bound other else scope.binding other := by
  simp only [binding, lookup_store]
  by_cases same : name = other
  · simp only [same, if_true]
    cases info <;> rfl
  · simp only [same, if_false]

theorem binding_error {scope : Scope} {name : Text} {e : EvalError}
    (h : scope.binding name = .error e) : e = .missingBinding name := by
  unfold binding at h
  split at h
  · cases h
  · exact (Except.error.inj h).symm

theorem Agree.refl (names : List Text) (E : Scope) : Agree names E E := fun _ _ _ => .rfl

theorem Agree.of_binding (h : ∀ name ∈ names, E.binding name = F.binding name) :
    Agree names E F := by
  intro name member v
  rw [h name member]

theorem Agree.binding (h : Agree names E F) {name : Text} (member : name ∈ names) :
    F.binding name = E.binding name := by
  have same := h name member
  cases left : E.binding name with
  | ok v => exact (same v).mp left
  | error e =>
      cases right : F.binding name with
      | ok v => cases left.symm.trans ((same v).mpr right)
      | error e' => rw [binding_error left, binding_error right]

theorem Agree.left {more : List Text} (h : Agree (names ++ more) E F) : Agree names E F :=
  fun name member => h name (List.mem_append_left more member)

theorem Agree.right {more : List Text} (h : Agree (names ++ more) E F) : Agree more E F :=
  fun name member => h name (List.mem_append_right names member)

theorem Agree.push (h : Agree names E F) : Agree names E.push F.push := by
  intro name member v
  rw [binding_push, binding_push]
  exact h name member v

theorem bound_eq_of_outline {i j : Info} (same : i.outline = j.outline) (name : Text) :
    i.bound name = j.bound name := by
  cases i <;> cases j <;> cases same <;> rfl

/-- Scopes go on to agree where the same is stored in both, up to what functions hold. -/
theorem Agree.storing (h : Agree names E F) {x y : Option (Text × Info)}
    (same : x.map outlineEntry = y.map outlineEntry) :
    Agree names (E.storing x) (F.storing y) := by
  cases x with
  | none =>
      cases y with
      | none => exact h
      | some y => cases same
  | some x =>
      cases y with
      | none => cases same
      | some y =>
          obtain ⟨name, i⟩ := x
          obtain ⟨name', j⟩ := y
          obtain ⟨rfl, stored⟩ := Prod.mk.inj (Option.some.inj same)
          intro other member v
          simp only [Scope.storing, binding_store]
          by_cases here : name = other
          · simp only [here, if_true, bound_eq_of_outline stored]
          · simp only [here, if_false]
            exact h other member v

end Scope

/-! ## A tree beside its outline -/

open Scope

mutual

theorem Expr.eval_outline : (e : Expr) → {E F : Scope} → Agree e.usages E F →
    (e.outline.eval F).1 = (e.eval E).1
  | .number _, _, _, _ => rfl
  | .operation lhs rhs op, _, _, h => by
      rw [Expr.outline, Expr.eval_operation, Expr.eval_operation, lhs.eval_outline h.left,
        rhs.eval_outline h.right]
  | .usage name, _, _, h => h.binding (List.mem_singleton.mpr rfl)
  | .block stmts, _, _, h => Stmt.evalAll_outline stmts h.push

theorem Stmt.stored_outline : (t : Stmt) → {E F : Scope} → Agree t.usages E F →
    (t.outline.stored F).map outlineEntry = (t.stored E).map outlineEntry
  | .binding name value, _, _, h => by
      rw [Stmt.outline, Stmt.stored, Stmt.stored, value.eval_outline h]
  | .function _ _ _, _, _, _ => rfl
  | .expr _, _, _, _ => rfl

theorem Stmt.eval_outline : (t : Stmt) → {E F : Scope} → Agree t.usages E F →
    (t.outline.eval F).1 = (t.eval E).1
  | .binding name value, _, _, h => by
      rw [Stmt.outline, Stmt.eval_binding, Stmt.eval_binding, value.eval_outline h]
  | .function _ _ _, _, _, _ => rfl
  | .expr e, _, _, h => e.eval_outline h

theorem Stmt.evalAll_outline : (ts : List Stmt) → {E F : Scope} → Agree (Stmt.usagesOfAll ts) E F →
    (Stmt.evalAll (Stmt.outlineAll ts) F).1 = (Stmt.evalAll ts E).1
  | [], _, _, _ => rfl
  | [t], _, _, h => by
      rw [Stmt.outlineAll, Stmt.outlineAll, Stmt.evalAll_singleton, Stmt.evalAll_singleton,
        t.eval_outline h.left]
  | t :: t' :: ts, _, _, h => by
      have stored := t.stored_outline h.left
      have later := Stmt.evalAll_outline (t' :: ts) (h.right.storing stored.symm)
      rw [Stmt.outlineAll, Stmt.outlineAll, Stmt.evalAll_cons_cons, Stmt.evalAll_cons_cons,
        t.eval_outline h.left]
      rw [Stmt.outlineAll] at later
      rw [later]

end

variable {E F : Scope} {t t' : Stmt}

/-- Statements that differ only in what their functions hold have the same value or the same error
in any scopes that agree on the names used, and store the same there, up to what functions hold. -/
theorem eval_noninterference (same : t.outline = t'.outline) (agree : Agree t.usages E F) :
    (t.eval E).1 = (t'.eval F).1 ∧
      (t.eval E).2 = E.storing (t.stored E) ∧ (t'.eval F).2 = F.storing (t'.stored F) ∧
      (t.stored E).map outlineEntry = (t'.stored F).map outlineEntry := by
  have answer : (t.eval E).1 = (t'.eval F).1 := by
    rw [← t.eval_outline agree, same, t'.eval_outline (.refl _ F)]
  have stored : (t.stored E).map outlineEntry = (t'.stored F).map outlineEntry := by
    rw [← t.stored_outline agree, same, t'.stored_outline (.refl _ F)]
  exact ⟨answer, t.eval_scope E, t'.eval_scope F, stored⟩

/-- A block with another function in it, evaluated one scope further in, where the name that it
uses is bound further out. -/
theorem eval_noninterference_nested :
    let used : Stmt := .expr (.operation (.usage ['c']) (.number 1) .add)
    let t := Stmt.binding ['x'] (.block [.function ['f'] [['c']] used, used])
    let t' := Stmt.binding ['x'] (.block [.function ['f'] [] (.expr (.usage ['y'])), used])
    let E := Scope.root.store ['c'] (.binding (.number 2))
    t.outline = t'.outline ∧ Agree t.usages E (E.push.store ['f'] (.binding .unit)) ∧
      (t.eval E).1 = (t'.eval (E.push.store ['f'] (.binding .unit))).1 ∧
      t'.stored (E.push.store ['f'] (.binding .unit)) = some (['x'], .binding (.number 3)) := by
  intro used t t' E
  have agree : Agree t.usages E (E.push.store ['f'] (.binding .unit)) :=
    .of_binding (by decide)
  have same : t.outline = t'.outline := rfl
  exact ⟨same, agree, (eval_noninterference same agree).1, by decide⟩

end BlockCalc
