import BlockCalc.Table
import BlockCalc.Tree.Equality
import BlockCalc.Tree.Inspect
import BlockCalc.Value
/-! Scopes. A scope has names of its own and the scopes around it, the nearest first. Storing
touches its own names only; looking up goes outward to the nearest scope that has the name, and
what is found there hides whatever the scopes further out have under it. -/
namespace BlockCalc

/-- What is stored under a name. A function can be stored and looked up, but not called. -/
inductive Info where
  | binding (value : Value)
  | function (params : List Text) (body : Stmt)
  deriving DecidableEq

/-- The names of one scope alone, in the order in which they were first stored. -/
abbrev Frame := Table Text Info

/-- A scope, and the names of every scope around it. -/
structure Scope where
  names : Frame
  enclosing : List Frame
  deriving DecidableEq

namespace Scope

def root : Scope := ⟨.empty, []⟩

def push (scope : Scope) : Scope := ⟨.empty, scope.names :: scope.enclosing⟩

/-- The scope around a scope; around a root there is only another empty root. -/
def pop (scope : Scope) : Scope :=
  match scope.enclosing with
  | [] => root
  | names :: enclosing => ⟨names, enclosing⟩

def store (scope : Scope) (name : Text) (info : Info) : Scope :=
  { scope with names := scope.names.insert name info }

def nearest? (name : Text) (frames : List Frame) : Option Info :=
  frames.findSome? fun frame => frame.find? name

def lookup (scope : Scope) (name : Text) : Option Info :=
  nearest? name (scope.names :: scope.enclosing)

def contains (scope : Scope) (name : Text) : Bool := (scope.lookup name).isSome

/-- The value bound to a name. A function under that name is no binding, and hides the bindings
further out. -/
def binding (scope : Scope) (name : Text) : Except EvalError Value :=
  match scope.lookup name with
  | some (.binding value) => .ok value
  | _ => .error (.missingBinding name)

/-- The parameters and the body of the function under a name, which a binding may hide. -/
def function (scope : Scope) (name : Text) : Except EvalError (List Text × Stmt) :=
  match scope.lookup name with
  | some (.function params body) => .ok (params, body)
  | _ => .error (.missingFunction name)

@[simp] theorem pop_push (scope : Scope) : scope.push.pop = scope := rfl

/-- A new scope sees what is around it. -/
theorem lookup_push (scope : Scope) (name : Text) : scope.push.lookup name = scope.lookup name := by
  simp only [push, lookup, nearest?, List.findSome?_cons, Table.find?_empty]

/-- A name just stored is seen at once, and no other name changes. -/
theorem lookup_store (scope : Scope) (name other : Text) (info : Info) :
    (scope.store name info).lookup other =
      if name = other then some info else scope.lookup other := by
  simp only [store, lookup, nearest?, List.findSome?_cons, Table.find?_insert]
  by_cases same : name = other
  · simp only [same, if_true]
  · simp only [same, if_false]

end Scope

def Info.inspect : Info → Text
  | binding value => inspectNode "Binding" [("val", value.inspect)]
  | function params body =>
    inspectNode "Func" [("params", bracketed (params.map Text.quoted)), ("body", body.inspect)]

/-- The inspection of a scope shows its own names, and only whether there is a scope around it. -/
def Scope.inspect (scope : Scope) : Text :=
  let entries := scope.names.entries.map fun entry =>
    Text.quoted entry.1 ++ ": ".toList ++ entry.2.inspect
  inspectNode "Env" [
    ("named", '{' :: Text.joinWith ", ".toList entries ++ ['}']),
    ("parent", if scope.enclosing.isEmpty then "None".toList else "Env(...)".toList)]

end BlockCalc
