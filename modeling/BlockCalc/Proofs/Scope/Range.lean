import BlockCalc.Proofs.Grammar.Soundness
import BlockCalc.Proofs.Scope.Effects
/-! The range of values. Literals that were read are numbers of 32 bits, and results are checked, so
nothing else is ever bound in a scope or given as a value, whatever came before and whether or not
it failed. The only errors left are those that the user of the language can mend. -/
namespace BlockCalc
open Grammar (wellFormed_of_parseWithin)

def Value.InRange : Value → Prop
  | .number n => Fits n
  | .unit => True

def Info.InRange : Info → Prop
  | .binding v => v.InRange
  | .function _ _ => True

/-- Every binding in a scope and in those around it, be it hidden or not, is in range. -/
def Scope.InRange (scope : Scope) : Prop :=
  ∀ frame ∈ scope.names :: scope.enclosing, ∀ entry ∈ frame.entries, entry.2.InRange

/-- The kinds of errors that there are between values in range. The operands of a result that does
not fit are in range themselves. -/
inductive EvalError.Ordinary : EvalError → Prop
  | missingBinding (name : Text) : Ordinary (.missingBinding name)
  | operandNotNumber : Ordinary .operandNotNumber
  | divisionByZero : Ordinary .divisionByZero
  | resultOutOfRange {m op n result} : Fits m → Fits n → op.result? m n = some result →
      ¬ Fits result → Ordinary (.resultOutOfRange m op n)

def AnswerInRange : Except EvalError Value → Prop
  | .ok v => v.InRange
  | .error e => e.Ordinary

/-- The answers of statements that were read, evaluated one after the other from an empty scope, and
the scope behind the last of them. A statement that fails is followed by the next as any other. -/
inductive Reached : List (Except EvalError Value) → Scope → Prop
  | root : Reached [] .root
  | evaluated {answers scope limit source t} : Reached answers scope →
      parseWithin limit source = .ok t →
      Reached (answers ++ [(t.eval scope).1]) (t.eval scope).2

/-! ## Scopes in range -/

section
variable {scope : Scope} {name : Text} {info : Info}

theorem Scope.root_inRange : Scope.root.InRange := by
  intro frame member entry stored
  cases List.mem_singleton.mp member
  cases stored

theorem Scope.InRange.push (h : scope.InRange) : scope.push.InRange := by
  intro frame member entry stored
  rcases List.mem_cons.mp member with rfl | member
  · cases stored
  · exact h frame member entry stored

theorem Scope.InRange.store (h : scope.InRange) (valid : info.InRange) :
    (scope.store name info).InRange := by
  intro frame member entry stored
  rcases List.mem_cons.mp member with rfl | member
  · rcases Table.mem_insertEntry stored with rfl | stored
    · exact valid
    · exact h scope.names List.mem_cons_self entry stored
  · exact h frame (List.mem_cons_of_mem scope.names member) entry stored

theorem Scope.InRange.lookup (h : scope.InRange) (found : scope.lookup name = some info) :
    info.InRange := by
  obtain ⟨frame, member, here⟩ := List.exists_of_findSome?_eq_some found
  exact h frame member _ (Table.mem_of_findEntry here)

theorem Scope.InRange.binding (h : scope.InRange) : AnswerInRange (scope.binding name) := by
  unfold Scope.binding
  split
  · next value found => exact h.lookup found
  · exact .missingBinding name

end

/-! ## Evaluation within the range -/

theorem AnswerInRange.bind {x : Except EvalError Value} {f : Value → Except EvalError Value}
    (h : AnswerInRange x) (later : ∀ v, v.InRange → AnswerInRange (f v)) :
    AnswerInRange (x >>= f) := by
  cases x with
  | error e => exact h
  | ok v => exact later v h

theorem onValues_inRange (op : Op) {l r : Value} (hl : l.InRange) (hr : r.InRange) :
    AnswerInRange (op.onValues l r) := by
  cases l with
  | unit => exact .operandNotNumber
  | number m =>
      cases r with
      | unit => exact .operandNotNumber
      | number n =>
          rw [Op.onValues, Op.apply]
          split
          · exact .divisionByZero
          · next result exact_result =>
              split
              · next fit => exact fit
              · next misfit => exact .resultOutOfRange hl hr exact_result misfit

mutual

theorem Expr.eval_inRange (e : Expr) (h : e.wellFormed = true) {scope : Scope}
    (hs : scope.InRange) : AnswerInRange (e.eval scope).1 := by
  cases e with
  | number n =>
      rw [Expr.eval, Value.ofInt, if_pos (Expr.fits_of_wellFormed h)]
      exact Expr.fits_of_wellFormed h
  | operation lhs rhs op =>
      simp only [Expr.wellFormed, Bool.and_eq_true] at h
      rw [Expr.eval_operation]
      apply (lhs.eval_inRange h.1.2 hs).bind
      intro l hl
      apply (rhs.eval_inRange h.2 hs).bind
      intro r hr
      exact onValues_inRange op hl hr
  | usage name => exact hs.binding
  | block stmts => exact Stmt.evalAll_inRange stmts h hs.push

theorem Stmt.stored_inRange (t : Stmt) (h : t.wellFormed = true) {scope : Scope}
    (hs : scope.InRange) : (scope.storing (t.stored scope)).InRange := by
  cases t with
  | binding name value =>
      simp only [Stmt.wellFormed, Bool.and_eq_true] at h
      have valid := value.eval_inRange h.2 hs
      rw [Stmt.stored]
      generalize (value.eval scope).1 = answer at valid
      cases answer with
      | ok v => exact hs.store valid
      | error e => exact hs
  | function name params body => exact hs.store True.intro
  | expr e => exact hs

theorem Stmt.eval_inRange (t : Stmt) (h : t.wellFormed = true) {scope : Scope}
    (hs : scope.InRange) : AnswerInRange (t.eval scope).1 := by
  cases t with
  | binding name value =>
      simp only [Stmt.wellFormed, Bool.and_eq_true] at h
      have valid := value.eval_inRange h.2 hs
      rw [Stmt.eval_binding]
      generalize (value.eval scope).1 = answer at valid
      cases answer with
      | ok v => exact True.intro
      | error e => exact valid
  | function name params body => exact True.intro
  | expr e => exact e.eval_inRange h hs

theorem Stmt.evalAll_inRange (ts : List Stmt) (h : Stmt.allWellFormed ts = true) {scope : Scope}
    (hs : scope.InRange) : AnswerInRange (Stmt.evalAll ts scope).1 := by
  cases ts with
  | nil => exact True.intro
  | cons t ts =>
      simp only [Stmt.allWellFormed, Bool.and_eq_true] at h
      cases ts with
      | nil =>
          rw [Stmt.evalAll_singleton]
          exact t.eval_inRange h.1 hs
      | cons t' ts =>
          rw [Stmt.evalAll_cons_cons]
          apply (t.eval_inRange h.1 hs).bind
          intro v hv
          exact Stmt.evalAll_inRange (t' :: ts) h.2 (t.stored_inRange h.1 hs)

end

/-! ## Whole runs -/

theorem EvalError.Ordinary.message {e : EvalError} (h : e.Ordinary) :
    e.message.kind = .eval ∧ e.message.internal = false := by
  cases h <;> exact ⟨rfl, rfl⟩

theorem Reached.inRange {answers : List (Except EvalError Value)} {scope : Scope}
    (h : Reached answers scope) :
    scope.InRange ∧ ∀ answer ∈ answers, AnswerInRange answer := by
  induction h with
  | root => exact ⟨Scope.root_inRange, List.forall_mem_nil _⟩
  | @evaluated answers scope limit source t h read ih =>
      obtain ⟨hs, earlier⟩ := ih
      have valid := wellFormed_of_parseWithin read
      constructor
      · rw [t.eval_scope scope]
        exact t.stored_inRange valid hs
      · have last : ∀ answer ∈ [(t.eval scope).1], AnswerInRange answer :=
          List.forall_mem_singleton.mpr (t.eval_inRange valid hs)
        exact List.forall_mem_append.mpr ⟨earlier, last⟩

/-- No sequence of statements leads from an empty scope to a number out of range, whether they fail
or not; and where one fails, its message is none about a mistake of the program itself. -/
theorem reached_inRange {answers : List (Except EvalError Value)} {scope : Scope}
    (h : Reached answers scope) :
    scope.InRange ∧ (∀ v, .ok v ∈ answers → v.InRange) ∧
      ∀ e, .error e ∈ answers →
        e.Ordinary ∧ e.message.kind = .eval ∧ e.message.internal = false := by
  obtain ⟨hs, all⟩ := h.inRange
  refine ⟨hs, fun v member => all _ member, fun e member => ?_⟩
  have ordinary : e.Ordinary := all _ member
  exact ⟨ordinary, ordinary.message⟩

/-- A run in which there is an error of each kind. -/
theorem reached_inRange_failing :
    let answers := [.error .divisionByZero, .error (.missingBinding ['a']),
      .error (.resultOutOfRange 2147483647 .mul 2), .ok .unit, .error .operandNotNumber]
    let scope := Scope.root.store ['a'] (.binding (.number (-2147483648)))
    Reached answers scope ∧ scope.InRange ∧
      EvalError.Ordinary (.resultOutOfRange 2147483647 .mul 2) := by
  intro answers scope
  have division : parse "1 / 0".toList = .ok (.expr (.operation (.number 1) (.number 0) .div)) := by
    decide +kernel
  have missing : parse "let x = \x7b let b = 1 a \x7d".toList = .ok
      (.binding ['x'] (.block [.binding ['b'] (.number 1), .expr (.usage ['a'])])) := by
    decide +kernel
  have large : parse "2147483647 * 2".toList = .ok
      (.expr (.operation (.number 2147483647) (.number 2) .mul)) := by
    decide +kernel
  have least : parse "let a = \x7b 0 - 2147483647 \x7d - 1".toList = .ok (.binding ['a'] (.operation
      (.block [.expr (.operation (.number 0) (.number 2147483647) .sub)]) (.number 1) .sub)) := by
    decide +kernel
  have unit : parse "a + \x7b\x7d".toList = .ok
      (.expr (.operation (.usage ['a']) (.block []) .add)) := by
    decide +kernel
  have run : Reached answers scope :=
    ((((Reached.root.evaluated division).evaluated missing).evaluated large).evaluated
      least).evaluated unit
  obtain ⟨valid, -, ordinary⟩ := reached_inRange run
  exact ⟨run, valid, (ordinary (.resultOutOfRange 2147483647 .mul 2) (by decide)).1⟩

end BlockCalc
