import BlockCalc.Scope.Evaluation
/-! Scopes that stay. Evaluation opens and closes its scopes like brackets; here any number of
scopes live side by side, each opened within an earlier one, and a name stored in one of them is
seen at once by all that were ever opened within it. Scopes are numbered in the order in which
they were opened, and the root is number 0. -/
namespace BlockCalc

/-- The own names of a scope that stays, and the numbers of the scopes around it, nearest first. -/
structure ScopeNode where
  names : Frame
  around : List Nat
  deriving DecidableEq

/-- All scopes that were opened, each at the place of its number. -/
structure ScopeTree where
  nodes : List ScopeNode
  deriving DecidableEq

namespace ScopeTree

def root : ScopeTree := ⟨[⟨.empty, []⟩]⟩

/-- The own names of a scope; a number that was never given out has none. -/
def names (tree : ScopeTree) (id : Nat) : Frame :=
  match tree.nodes[id]? with
  | some node => node.names
  | none => .empty

def around (tree : ScopeTree) (id : Nat) : List Nat :=
  match tree.nodes[id]? with
  | some node => node.around
  | none => []

def scope (tree : ScopeTree) (id : Nat) : Scope := ⟨tree.names id, (tree.around id).map tree.names⟩

/-- Opens a scope within the scope `id` and gives its number. -/
def child (tree : ScopeTree) (id : Nat) : Nat × ScopeTree :=
  (tree.nodes.length, ⟨tree.nodes ++ [⟨.empty, id :: tree.around id⟩]⟩)

def setNames (tree : ScopeTree) (id : Nat) (names : Frame) : ScopeTree :=
  ⟨tree.nodes.modify id fun node => { node with names }⟩

/-- Stores under a name in the scope `id` alone. -/
def store (tree : ScopeTree) (id : Nat) (name : Text) (info : Info) : ScopeTree :=
  tree.setNames id ((tree.names id).insert name info)

/-- Evaluates a statement in the scope `id`. Whatever it leaves in that scope and in those around
it is kept. -/
def evaluate (tree : ScopeTree) (id : Nat) (stmt : Stmt) : Except EvalError Value × ScopeTree :=
  match stmt.eval (tree.scope id) with
  | (answer, after) =>
    (answer, ((id :: tree.around id).zip (after.names :: after.enclosing)).foldl
      (fun tree entry => tree.setNames entry.1 entry.2) tree)

end ScopeTree
end BlockCalc
