import BlockCalc.Proofs.Grammar.Answers
import BlockCalc.Proofs.Scope.Effects
/-! What a statement does to the scopes that it is evaluated in. With a value it sets at most one
entry of the innermost scope, the one under the name that it defines; with an error it sets none,
whatever the blocks in it stored before. The scopes around are left alone in either case. -/
namespace BlockCalc

/-- A frame before and after something was stored under a name: there and nowhere else. A name that
was present keeps its place, and a new one comes last. -/
structure Frame.Sets (name : Text) (info : Info) (before after : Frame) : Prop where
  here : after.find? name = some info
  others : ∀ other, other ≠ name → after.find? other = before.find? other
  present : name ∈ before.keys → after.keys = before.keys
  added : name ∉ before.keys → after.keys = before.keys ++ [name]

theorem Frame.sets_insert (frame : Frame) (name : Text) (info : Info) :
    Frame.Sets name info frame (frame.insert name info) where
  here := by rw [Table.find?_insert, if_pos rfl]
  others other different := by rw [Table.find?_insert, if_neg different.symm]
  present member := by rw [Table.keys_insert, if_pos member]
  added absent := by rw [Table.keys_insert, if_neg absent]

/-- What becomes of the innermost scope when a statement has a value there: a definition sets its
name to what it defines, and an expression sets nothing. -/
def Stmt.Changes (before : Scope) (after : Frame) : Stmt → Prop
  | .binding name value =>
      ∃ found, (value.eval before).1 = .ok found ∧
        Frame.Sets name (.binding found) before.names after
  | .function name params body => Frame.Sets name (.function params body) before.names after
  | .expr _ => after = before.names

section
variable {t : Stmt} {scope : Scope}

theorem Stmt.changes_storing {v : Value} (value : (t.eval scope).1 = .ok v) :
    t.Changes scope (scope.storing (t.stored scope)).names := by
  cases t with
  | binding name e =>
      rw [Stmt.eval_binding] at value
      cases found : (e.eval scope).1 with
      | error failure =>
          rw [found] at value
          cases value
      | ok w =>
          refine ⟨w, found, ?_⟩
          simp only [Stmt.stored, found]
          exact Frame.sets_insert scope.names name (.binding w)
  | function name params body => exact Frame.sets_insert scope.names name (.function params body)
  | expr e => rfl

theorem Stmt.stored_of_error {e : EvalError} (failed : (t.eval scope).1 = .error e) :
    t.stored scope = none := by
  cases t with
  | binding name value =>
      rw [Stmt.eval_binding] at failed
      cases found : (value.eval scope).1 with
      | error failure => simp only [Stmt.stored, found]
      | ok w =>
          rw [found] at failed
          cases failed
  | function name params body => cases failed
  | expr value => rfl

end

/-- A statement with a value changes nothing but what it defines in the innermost scope; one with an
error leaves every scope as it was. -/
theorem eval_framed (t : Stmt) (scope : Scope) :
    (∀ v, (t.eval scope).1 = .ok v →
      t.Changes scope (t.eval scope).2.names ∧ (t.eval scope).2.enclosing = scope.enclosing) ∧
    ∀ e, (t.eval scope).1 = .error e → (t.eval scope).2 = scope := by
  constructor
  · intro v value
    rw [t.eval_scope scope]
    exact ⟨Stmt.changes_storing value, Scope.enclosing_storing scope _⟩
  · intro e failed
    rw [t.eval_scope scope, Stmt.stored_of_error failed]
    rfl

/-- A block that defines a name twice and a function further in before it divides by zero, under a
name that is bound already; and the same block without the division. -/
theorem eval_framed_nested :
    let inner (last : Expr) : Expr := .block [.binding ['x'] (.number 1),
      .expr (.block [.function ['x'] [] (.expr (.usage ['y'])), .binding ['y'] (.number 2),
        .binding ['y'] (.usage ['y']), .expr last])]
    let failing := Stmt.binding ['x'] (inner (.operation (.usage ['y']) (.number 0) .div))
    let valued := Stmt.binding ['x'] (inner (.usage ['y']))
    let E := (Scope.root.store ['y'] (.binding .unit)).push.store ['x'] (.binding (.number 7))
    (failing.eval E).1 = .error .divisionByZero ∧ (failing.eval E).2 = E ∧
      (valued.eval E).1 = .ok .unit ∧ (valued.eval E).2.enclosing = E.enclosing ∧
      valued.Changes E (valued.eval E).2.names ∧
      (valued.eval E).2.binding ['x'] = .ok (.number 2) := by
  intro inner failing valued E
  have failed : (failing.eval E).1 = .error .divisionByZero := by decide
  have value : (valued.eval E).1 = .ok .unit := by decide
  have changed := (eval_framed valued E).1 _ value
  exact ⟨failed, (eval_framed failing E).2 _ failed, value, changed.2, changed.1, by decide⟩

end BlockCalc
