import BlockCalc.Proofs.Scope.Noninterference
/-! Statements that are independent of each other. A statement stores under no name but the one
that it defines, and sees no names but those that it uses. So where neither of two statements
defines what the other defines or uses, each has the same answer whether it is evaluated first or
second, and both orders leave the same names behind. Only the order in which new names came may
differ. -/
namespace BlockCalc

def Stmt.defined? : Stmt → Option Text
  | .binding name _ => some name
  | .function name _ _ => some name
  | .expr _ => none

/-- What the one of two statements defines is neither defined nor used by the other; the names in
function bodies do not count as used. -/
structure Stmt.Independent (a b : Stmt) : Prop where
  names : ∀ name ∈ a.defined?, name ∉ b.defined?
  usages : ∀ name ∈ a.defined?, name ∉ b.usages
  usages' : ∀ name ∈ b.defined?, name ∉ a.usages

/-- Scopes within the same scopes, in which the same is stored under every name. -/
structure Scope.SameNames (E F : Scope) : Prop where
  here : ∀ name, E.names.find? name = F.names.find? name
  around : E.enclosing = F.enclosing

open Scope

section
variable {a b t : Stmt} {E F : Scope}

theorem Stmt.Independent.symm (h : a.Independent b) : b.Independent a where
  names name defined defined' := h.names name defined' defined
  usages := h.usages'
  usages' := h.usages

/-! ## What a statement stores -/

theorem Stmt.defined_of_stored {entry : Text × Info} (h : entry ∈ t.stored E) :
    entry.1 ∈ t.defined? := by
  cases t with
  | binding name value =>
      simp only [Stmt.stored] at h
      split at h
      · cases h
        rfl
      · cases h
  | function name params body =>
      cases h
      rfl
  | expr e => cases h

/-- A scope goes on to agree with itself on the names that nothing was stored under. -/
theorem Scope.Agree.storing_other {names : List Text} {entry : Option (Text × Info)}
    (other : ∀ e ∈ entry, e.1 ∉ names) : Agree names E (E.storing entry) := by
  cases entry with
  | none => exact .refl names E
  | some e =>
      refine .of_binding fun name member => ?_
      have different : e.1 ≠ name := fun same => other e rfl (same ▸ member)
      rw [Scope.storing, binding_store, if_neg different]

/-- The evaluation of a statement changes nothing that another, independent of it, sees. -/
theorem Stmt.Independent.agree (h : a.Independent b) (E : Scope) :
    Agree b.usages E (a.eval E).2 := by
  rw [a.eval_scope E]
  exact .storing_other fun e stored => h.usages e.1 (Stmt.defined_of_stored stored)

/-! ## In scopes that agree -/

theorem Stmt.eval_of_agree (h : Agree t.usages E F) : (t.eval F).1 = (t.eval E).1 := by
  rw [← t.eval_outline (.refl t.usages F), t.eval_outline h]

theorem Stmt.stored_of_agree (h : Agree t.usages E F) : t.stored F = t.stored E := by
  cases t with
  | binding name value =>
      have same : (value.eval F).1 = (value.eval E).1 := by
        rw [← value.eval_outline (.refl value.usages F), value.eval_outline h]
      rw [Stmt.stored, Stmt.stored, same]
  | function name params body => rfl
  | expr e => rfl

/-! ## Both orders -/

theorem Scope.SameNames.refl (E : Scope) : SameNames E E := ⟨fun _ => rfl, rfl⟩

/-- What is stored under two names can be stored in either order. -/
theorem Scope.storing_comm {x y : Option (Text × Info)} (apart : ∀ e ∈ x, ∀ e' ∈ y, e.1 ≠ e'.1) :
    SameNames ((E.storing x).storing y) ((E.storing y).storing x) := by
  cases x with
  | none => exact .refl _
  | some e =>
      cases y with
      | none => exact .refl _
      | some e' =>
          refine ⟨fun name => ?_, rfl⟩
          have different := apart e rfl e' rfl
          simp only [Scope.storing, Scope.store, Table.find?_insert]
          by_cases first : e.1 = name
          · have second : e'.1 ≠ name := fun same => different (first.trans same.symm)
            rw [if_neg second, if_pos first, if_pos first]
          · rw [if_neg first, if_neg first]

/-- Two independent statements have the same values or errors in either order, whether or not the
first of them fails, and leave the same names behind. -/
theorem eval_commutes (h : a.Independent b) (E : Scope) :
    (b.eval (a.eval E).2).1 = (b.eval E).1 ∧ (a.eval (b.eval E).2).1 = (a.eval E).1 ∧
      SameNames (b.eval (a.eval E).2).2 (a.eval (b.eval E).2).2 := by
  refine ⟨Stmt.eval_of_agree (h.agree E), Stmt.eval_of_agree (h.symm.agree E), ?_⟩
  -- Both scopes as the old one with what the two statements store, in one order and the other.
  have behind : (b.eval (a.eval E).2).2 = (E.storing (a.stored E)).storing (b.stored E) := by
    rw [b.eval_scope, Stmt.stored_of_agree (h.agree E), a.eval_scope]
  have behind' : (a.eval (b.eval E).2).2 = (E.storing (b.stored E)).storing (a.stored E) := by
    rw [a.eval_scope, Stmt.stored_of_agree (h.symm.agree E), b.eval_scope]
  rw [behind, behind']
  refine Scope.storing_comm fun e stored e' stored' same => ?_
  have defined := Stmt.defined_of_stored stored'
  rw [← same] at defined
  exact h.names e.1 (Stmt.defined_of_stored stored) defined

end

/-- A function that hides a binding further out, and a block that names it in a function body only.
A third statement uses a name that stands for a function, and has an error before and after. -/
theorem eval_commutes_hiding :
    let shadow := Stmt.function ['y'] [['a']] (.expr (.usage ['x']))
    let bound := Stmt.binding ['x'] (.block [.function ['g'] [] (.expr (.usage ['y'])),
      .binding ['z'] (.number 1), .expr (.operation (.usage ['z']) (.number 2) .add)])
    let failing := Stmt.binding ['w'] (.block [.binding ['y'] (.number 3), .expr (.usage ['f'])])
    let E := ((Scope.root.store ['f'] (.binding .unit)).store ['y'] (.binding .unit)).push.store
      ['f'] (.function [] (.expr (.usage ['y'])))
    shadow.Independent bound ∧ shadow.Independent failing ∧
      SameNames (bound.eval (shadow.eval E).2).2 (shadow.eval (bound.eval E).2).2 ∧
      (bound.eval (shadow.eval E).2).2.names.keys = [['f'], ['y'], ['x']] ∧
      (shadow.eval (bound.eval E).2).2.names.keys = [['f'], ['x'], ['y']] ∧
      (failing.eval (shadow.eval E).2).1 = (failing.eval E).1 ∧
      (failing.eval E).1 = .error (.missingBinding ['f']) := by
  intro shadow bound failing E
  have independent : shadow.Independent bound := ⟨by decide, by decide, by decide⟩
  have independent' : shadow.Independent failing := ⟨by decide, by decide, by decide⟩
  refine ⟨independent, independent', (eval_commutes independent E).2.2, by decide, by decide,
    (eval_commutes independent' E).1, by decide⟩

end BlockCalc
