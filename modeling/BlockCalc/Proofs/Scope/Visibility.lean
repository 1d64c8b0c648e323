import BlockCalc.Scope.Tree
/-! Who sees what was stored. Scopes that stay are opened and stored in by calls in any order. What
a name stands for in a scope is decided by the calls alone: on the way from the scope to the root,
the first scope in which something was ever stored under the name, and there what was stored last.
So a store is seen from within its scope, also from scopes that were opened later, and from nowhere
else. -/
namespace BlockCalc

/-- A call on one of the scopes that were opened so far. -/
inductive ScopeCall where
  | child (id : Nat)
  | store (id : Nat) (name : Text) (info : Info)
  deriving DecidableEq

def ScopeCall.outer? : ScopeCall → Option Nat
  | .child id => some id
  | .store _ _ _ => none

def ScopeCall.stored? (id : Nat) (name : Text) : ScopeCall → Option Info
  | .child _ => none
  | .store id' name' info => if id' = id ∧ name' = name then some info else none

theorem ScopeCall.stored_eq_some_iff {call : ScopeCall} {id : Nat} {name : Text} {info : Info} :
    call.stored? id name = some info ↔ call = .store id name info := by
  cases call with
  | child id' => exact ⟨nofun, nofun⟩
  | store id' name' info' =>
      simp only [stored?, Option.ite_none_right_eq_some, Option.some.injEq, ScopeCall.store.injEq,
        and_assoc]

namespace Scope
variable {scope : Scope} {name : Text}

theorem binding_eq_ok_iff {v : Value} :
    scope.binding name = .ok v ↔ scope.lookup name = some (.binding v) := by
  unfold binding
  split
  · next found =>
      rw [found]
      simp only [Except.ok.injEq, Option.some.injEq, Info.binding.injEq]
  · next other => exact ⟨nofun, fun found => False.elim (other v found)⟩

theorem function_eq_ok_iff {params : List Text} {body : Stmt} :
    scope.function name = .ok (params, body) ↔
      scope.lookup name = some (.function params body) := by
  unfold function
  split
  · next found =>
      rw [found]
      simp only [Except.ok.injEq, Prod.mk.injEq, Option.some.injEq, Info.function.injEq]
  · next other => exact ⟨nofun, fun found => False.elim (other params body found)⟩

end Scope

namespace ScopeTree

def after (tree : ScopeTree) : ScopeCall → ScopeTree
  | .child id => (tree.child id).2
  | .store id name info => tree.store id name info

def afterAll (tree : ScopeTree) (calls : List ScopeCall) : ScopeTree := calls.foldl after tree

/-! ## What the calls say by themselves -/

/-- Calls on scopes that are open already, where `count` scopes were open before the first call. -/
def LegalFrom (count : Nat) : List ScopeCall → Prop
  | [] => True
  | .child id :: calls => id < count ∧ LegalFrom (count + 1) calls
  | .store id _ _ :: calls => id < count ∧ LegalFrom count calls

def Legal (calls : List ScopeCall) : Prop := LegalFrom 1 calls

/-- For each scope but the root, in the order of their numbers, the scope that it was opened in. -/
def outers (calls : List ScopeCall) : List Nat := calls.filterMap ScopeCall.outer?

/-- The numbers of the scopes on the way from a scope to the root, both ends included, where each
scope but the root was opened in the one listed for it. -/
inductive Path (outers : List Nat) : Nat → List Nat → Prop
  | root : Path outers 0 [0]
  | within {id outer ids} : outers[id]? = some outer → Path outers outer ids →
      Path outers (id + 1) ((id + 1) :: ids)

def Received (calls : List ScopeCall) (id : Nat) (name : Text) : Prop :=
  ∃ info, .store id name info ∈ calls

/-- What was stored under the name in the scope by the last call that stored there under it. -/
def LastStored (calls : List ScopeCall) (id : Nat) (name : Text) (info : Info) : Prop :=
  ∃ earlier later, calls = earlier ++ .store id name info :: later ∧ ¬ Received later id name

/-- What was stored last in the first of several scopes that ever received the name. -/
def Nearest (calls : List ScopeCall) (ids : List Nat) (name : Text) (info : Info) : Prop :=
  ∃ before id after, ids = before ++ id :: after ∧ (∀ i ∈ before, ¬ Received calls i name) ∧
    LastStored calls id name info

/-- What a scope shows of the calls, given the scopes on its way to the root. -/
structure Shows (calls : List ScopeCall) (ids : List Nat) (scope : Scope) : Prop where
  found : ∀ name info, scope.lookup name = some info ↔ Nearest calls ids name info
  missing : ∀ name, scope.lookup name = none ↔ ∀ id ∈ ids, ¬ Received calls id name
  binding : ∀ name v, scope.binding name = .ok v ↔ Nearest calls ids name (.binding v)
  function : ∀ name params body,
    scope.function name = .ok (params, body) ↔ Nearest calls ids name (.function params body)

/-! ## The last store, computed -/

/-- The last of what the calls stored in a scope under a name. -/
def latest? (calls : List ScopeCall) (id : Nat) (name : Text) : Option Info :=
  calls.reverse.findSome? (ScopeCall.stored? id name)

section
variable {calls later : List ScopeCall} {call : ScopeCall} {id : Nat} {name : Text} {info : Info}

theorem stored_eq_none_iff :
    (∀ call ∈ calls, call.stored? id name = none) ↔ ¬ Received calls id name := by
  constructor
  · rintro none ⟨info, member⟩
    cases (none _ member).symm.trans (ScopeCall.stored_eq_some_iff.mpr rfl)
  · intro never call member
    refine Option.eq_none_iff_forall_ne_some.mpr fun info stored => never ⟨info, ?_⟩
    rw [← ScopeCall.stored_eq_some_iff.mp stored]
    exact member

theorem latest_eq_none_iff : latest? calls id name = none ↔ ¬ Received calls id name := by
  simp only [latest?, List.findSome?_eq_none_iff, List.mem_reverse]
  exact stored_eq_none_iff

theorem latest_eq_some_iff : latest? calls id name = some info ↔ LastStored calls id name info := by
  rw [latest?, List.findSome?_eq_some_iff]
  constructor
  · rintro ⟨behind, call, before, split, stored, none⟩
    obtain rfl := ScopeCall.stored_eq_some_iff.mp stored
    refine ⟨before.reverse, behind.reverse, ?_, ?_⟩
    · rw [← List.reverse_reverse calls, split, List.reverse_append, List.reverse_cons,
        List.append_assoc, List.singleton_append]
    · refine stored_eq_none_iff.mp fun call member => none call (List.mem_reverse.mp member)
  · rintro ⟨before, behind, rfl, never⟩
    refine ⟨behind.reverse, .store id name info, before.reverse, ?_,
      ScopeCall.stored_eq_some_iff.mpr rfl, ?_⟩
    · rw [List.reverse_append, List.reverse_cons, List.append_assoc, List.singleton_append]
    · intro call member
      exact stored_eq_none_iff.mpr never call (List.mem_reverse.mp member)

theorem latest_append (calls later : List ScopeCall) (id : Nat) (name : Text) :
    latest? (calls ++ later) id name = (latest? later id name).or (latest? calls id name) := by
  rw [latest?, List.reverse_append, List.findSome?_append]
  rfl

theorem latest_singleton (call : ScopeCall) (id : Nat) (name : Text) :
    latest? [call] id name = call.stored? id name := by
  rw [latest?, List.reverse_singleton, List.findSome?_singleton]

/-- The first scope with a last store is the nearest that received the name. -/
theorem findSome_latest_eq_some_iff {ids : List Nat} :
    (ids.findSome? fun i => latest? calls i name) = some info ↔ Nearest calls ids name info := by
  simp only [List.findSome?_eq_some_iff, latest_eq_some_iff, latest_eq_none_iff]
  constructor
  · rintro ⟨before, i, after, split, last, none⟩
    exact ⟨before, i, after, split, none, last⟩
  · rintro ⟨before, i, after, split, none, last⟩
    exact ⟨before, i, after, split, last, none⟩

end

/-! ## What a call does to the tree -/

section
variable {tree : ScopeTree} {id : Nat}

theorem length_child (tree : ScopeTree) (id : Nat) :
    (tree.child id).2.nodes.length = tree.nodes.length + 1 := List.length_append

theorem length_store (tree : ScopeTree) (id : Nat) (name : Text) (info : Info) :
    (tree.store id name info).nodes.length = tree.nodes.length := List.length_modify ..

theorem names_child (tree : ScopeTree) (id other : Nat) :
    (tree.child id).2.names other = tree.names other := by
  unfold names child
  rcases Nat.lt_trichotomy other tree.nodes.length with old | rfl | beyond
  · rw [List.getElem?_append_left old]
  · rw [List.getElem?_concat_length, List.getElem?_eq_none (Nat.le_refl _)]
  · rw [List.getElem?_eq_none (List.length_append ▸ beyond),
      List.getElem?_eq_none (Nat.le_of_lt beyond)]

theorem around_child_old {other : Nat} (old : other < tree.nodes.length) :
    (tree.child id).2.around other = tree.around other := by
  unfold around child
  rw [List.getElem?_append_left old]

theorem around_child_new (tree : ScopeTree) (id : Nat) :
    (tree.child id).2.around tree.nodes.length = id :: tree.around id := by
  rw [child, around, List.getElem?_concat_length]

theorem names_store (opened : id < tree.nodes.length) (name : Text) (info : Info) (other : Nat) :
    (tree.store id name info).names other =
      if id = other then (tree.names id).insert name info else tree.names other := by
  rw [store, setNames, names, List.getElem?_modify]
  by_cases same : id = other
  · subst same
    simp only [if_true, List.getElem?_eq_getElem opened, Option.map_eq_map, Option.map_some]
  · simp only [same, if_false, id_map']
    rfl

theorem around_store (tree : ScopeTree) (id : Nat) (name : Text) (info : Info) (other : Nat) :
    (tree.store id name info).around other = tree.around other := by
  rw [store, setNames, around, around, List.getElem?_modify]
  cases tree.nodes[other]? with
  | none => rfl
  | some node =>
      by_cases same : id = other
      · simp only [same, if_true, Option.map_eq_map, Option.map_some]
      · simp only [same, if_false, Option.map_eq_map, Option.map_some]

end

/-! ## The tree as a record of the calls -/

section
variable {calls : List ScopeCall} {inside : List Nat} {id : Nat} {ids : List Nat}

theorem Path.append (h : Path inside id ids) (more : List Nat) : Path (inside ++ more) id ids := by
  induction h with
  | root => exact .root
  | within found _ ih =>
      refine .within ?_ ih
      obtain ⟨bound, -⟩ := List.getElem?_eq_some_iff.mp found
      rw [List.getElem?_append_left bound, found]

theorem Path.unique {ids' : List Nat} (h : Path inside id ids) (h' : Path inside id ids') :
    ids = ids' := by
  induction h generalizing ids' with
  | root =>
      cases h'
      rfl
  | within found _ ih =>
      obtain - | ⟨found', h'⟩ := h'
      cases found.symm.trans found'
      rw [ih h']

def Backward (inside : List Nat) : Prop :=
  ∀ i outer : Nat, inside[i]? = some outer → outer ≤ i

theorem Path.le (backward : Backward inside) (h : Path inside id ids) :
    ∀ i ∈ ids, i ≤ id := by
  induction h with
  | root =>
      intro i member
      exact Nat.le_of_eq (List.mem_singleton.mp member)
  | within found _ ih =>
      intro i member
      rcases List.mem_cons.mp member with rfl | further
      · exact Nat.le_refl _
      · exact Nat.le_succ_of_le (Nat.le_trans (ih i further) (backward _ _ found))

theorem Path.tail_lt (backward : Backward inside) (h : Path inside id ids) :
    ∀ i ∈ ids.tail, i < id := by
  cases h with
  | root => exact List.forall_mem_nil _
  | within found further =>
      intro i member
      exact Nat.lt_succ_of_le (Nat.le_trans (further.le backward i member) (backward _ _ found))

theorem Path.eq_cons (h : Path inside id ids) : ids = id :: ids.tail := by
  cases h <;> rfl

/-- A scope is not on the way of those around it, nor of those opened in the same scope as it. -/
theorem Path.not_mem {other : Nat} {around : List Nat} (backward : Backward inside)
    (h : Path inside id ids) (h' : Path inside other around) (different : id ≠ other)
    (apart : id ∈ around ∨ ids.tail = around.tail) : other ∉ ids := by
  intro member
  -- Numbers fall on the way outwards, so of two scopes only one can be around the other.
  rcases apart with outward | beside
  · rw [h'.eq_cons] at outward
    rcases List.mem_cons.mp outward with same | further
    · exact different same
    · have below := h'.tail_lt backward id further
      exact Nat.lt_irrefl id (Nat.lt_of_lt_of_le below (h.le backward other member))
  · rw [h.eq_cons, beside] at member
    rcases List.mem_cons.mp member with same | further
    · exact different same.symm
    · exact Nat.lt_irrefl other (h'.tail_lt backward other further)

theorem outers_append (calls later : List ScopeCall) :
    outers (calls ++ later) = outers calls ++ outers later := List.filterMap_append

theorem legalFrom_append {count : Nat} {later : List ScopeCall} :
    LegalFrom count (calls ++ later) ↔
      LegalFrom count calls ∧ LegalFrom (count + (outers calls).length) later := by
  induction calls generalizing count with
  | nil => exact (iff_of_eq (true_and _)).symm
  | cons call calls ih =>
      cases call with
      | child id =>
          have count' : count + 1 + (outers calls).length =
              count + (outers (.child id :: calls)).length := Nat.succ_add count _
          rw [List.cons_append, LegalFrom, LegalFrom, ih, and_assoc, count']
      | store id name info =>
          rw [List.cons_append, LegalFrom, LegalFrom, ih, and_assoc]
          rfl

end

section
variable {tree : ScopeTree} {calls later : List ScopeCall} {id : Nat}

/-- A tree in which the calls were carried out, beginning with a root alone. -/
structure Records (tree : ScopeTree) (calls : List ScopeCall) : Prop where
  opened : tree.nodes.length = (outers calls).length + 1
  backward : Backward (outers calls)
  paths : ∀ i < tree.nodes.length, Path (outers calls) i (i :: tree.around i)
  latest : ∀ i name, (tree.names i).find? name = latest? calls i name

theorem root_records : root.Records [] where
  opened := rfl
  backward := nofun
  paths i opened := by
    obtain rfl : i = 0 := Nat.lt_one_iff.mp opened
    exact .root
  latest i name := by
    cases i <;> rfl

theorem Records.child (h : tree.Records calls) (known : id < tree.nodes.length) :
    (tree.child id).2.Records (calls ++ [.child id]) where
  opened := by
    rw [length_child, h.opened, outers_append, List.length_append]
    rfl
  backward i outer found := by
    rw [outers_append] at found
    rcases Nat.lt_or_ge i (outers calls).length with old | new
    · rw [List.getElem?_append_left old] at found
      exact h.backward i outer found
    · rw [List.getElem?_append_right new] at found
      obtain rfl : id = outer := List.mem_singleton.mp (List.mem_of_getElem? found) |>.symm
      have bound := h.opened
      omega
  paths i opened := by
    rw [outers_append]
    rcases Nat.lt_or_eq_of_le (Nat.le_of_lt_succ (length_child tree id ▸ opened)) with old | rfl
    · rw [around_child_old old]
      exact (h.paths i old).append _
    · rw [around_child_new, h.opened]
      exact .within List.getElem?_concat_length ((h.paths id known).append _)
  latest i name := by
    rw [names_child, h.latest, latest_append, latest_singleton]
    rfl

theorem Records.store (h : tree.Records calls) (known : id < tree.nodes.length) (name : Text)
    (info : Info) : (tree.store id name info).Records (calls ++ [.store id name info]) := by
  have same : outers (calls ++ [.store id name info]) = outers calls := by
    rw [outers_append]
    exact List.append_nil _
  refine ⟨?_, ?_, ?_, ?_⟩
  · rw [length_store, same, h.opened]
  · rw [same]
    exact h.backward
  · intro i opened
    rw [same, around_store]
    exact h.paths i (length_store tree id name info ▸ opened)
  · intro i other
    rw [names_store known, latest_append, latest_singleton, ScopeCall.stored?]
    by_cases here : id = i
    · subst here
      rw [if_pos rfl, Table.find?_insert, h.latest]
      by_cases named : name = other
      · simp only [named, and_self, if_true, Option.some_or]
      · simp only [named, and_false, if_false, Option.none_or]
    · simp only [here, false_and, if_false, Option.none_or, h.latest]

theorem Records.afterAll (h : tree.Records calls) (legal : LegalFrom tree.nodes.length later) :
    (tree.afterAll later).Records (calls ++ later) := by
  induction later generalizing tree calls with
  | nil =>
      rw [List.append_nil]
      exact h
  | cons call later ih =>
      have next : (tree.after call).Records (calls ++ [call]) ∧
          LegalFrom (tree.after call).nodes.length later := by
        cases call with
        | child id => exact ⟨h.child legal.1, length_child tree id ▸ legal.2⟩
        | store id name info =>
            exact ⟨h.store legal.1 name info, length_store tree id name info ▸ legal.2⟩
      have last := ih next.1 next.2
      rw [List.append_assoc, List.singleton_append] at last
      exact last

theorem records_of_legal (legal : Legal calls) : (root.afterAll calls).Records calls :=
  root_records.afterAll legal

theorem Records.lookup (h : tree.Records calls) (id : Nat) (name : Text) :
    (tree.scope id).lookup name =
      (id :: tree.around id).findSome? fun i => latest? calls i name := by
  have same : (fun i => (tree.names i).find? name) = fun i => latest? calls i name :=
    funext fun i => h.latest i name
  have frames : tree.names id :: (tree.around id).map tree.names =
      (id :: tree.around id).map tree.names := List.map_cons.symm
  rw [← same, scope, Scope.lookup, Scope.nearest?, frames, List.findSome?_map]
  rfl

end

/-! ## What the scopes show -/

section
variable {calls earlier later : List ScopeCall} {tree : ScopeTree} {id : Nat} {ids : List Nat}

theorem Records.shows (h : tree.Records calls) (id : Nat) :
    Shows calls (id :: tree.around id) (tree.scope id) where
  found name info := by
    rw [h.lookup]
    exact findSome_latest_eq_some_iff
  missing name := by
    rw [h.lookup, List.findSome?_eq_none_iff]
    simp only [latest_eq_none_iff]
  binding name v := by
    rw [Scope.binding_eq_ok_iff, h.lookup]
    exact findSome_latest_eq_some_iff
  function name params body := by
    rw [Scope.function_eq_ok_iff, h.lookup]
    exact findSome_latest_eq_some_iff

/-- A store in one scope changes nothing for the others. -/
theorem latest_without {other i : Nat} (different : other ≠ i) (stored name : Text) (info : Info) :
    latest? (earlier ++ .store other stored info :: later) i name =
      latest? (earlier ++ later) i name := by
  have none : ScopeCall.stored? i name (.store other stored info) = none :=
    if_neg fun same => different same.1
  rw [← List.singleton_append, latest_append, latest_append, latest_singleton, none, Option.or_none,
    latest_append]

theorem findSome_latest_without {other : Nat} (elsewhere : other ∉ ids) (stored name : Text)
    (info : Info) :
    (ids.findSome? fun i => latest? (earlier ++ .store other stored info :: later) i name) =
      ids.findSome? fun i => latest? (earlier ++ later) i name := by
  induction ids with
  | nil => rfl
  | cons i ids ih =>
      obtain ⟨different, further⟩ := not_or.mp (mt List.mem_cons.mpr elsewhere)
      rw [List.findSome?_cons, List.findSome?_cons, latest_without different, ih further]

theorem Legal.without {other : Nat} {name : Text} {info : Info}
    (legal : Legal (earlier ++ .store other name info :: later)) : Legal (earlier ++ later) := by
  obtain ⟨first, -, last⟩ := legalFrom_append.mp legal
  exact legalFrom_append.mpr ⟨first, last⟩

theorem outers_without (earlier later : List ScopeCall) (other : Nat) (name : Text) (info : Info) :
    outers (earlier ++ .store other name info :: later) = outers (earlier ++ later) := by
  rw [outers_append, outers_append]
  rfl

def scopeAfter (calls : List ScopeCall) (id : Nat) : Scope := (root.afterAll calls).scope id

/-- From where a store is seen, and from where it is not. -/
structure StoreSeen (earlier : List ScopeCall) (other : Nat) (name : Text) (info : Info)
    (later : List ScopeCall) (id : Nat) (ids : List Nat) : Prop where
  /-- It is seen from its scope and from those within, as long as it is the last one and none of the
  scopes in between received the name. -/
  within : ∀ before after, ids = before ++ other :: after →
    (∀ i ∈ before, ¬ Received (earlier ++ .store other name info :: later) i name) →
    ¬ Received later other name →
      (scopeAfter (earlier ++ .store other name info :: later) id).lookup name = some info
  /-- From anywhere else all names stand for the same as without it. -/
  elsewhere : other ∉ ids → ∀ name',
    (scopeAfter (earlier ++ .store other name info :: later) id).lookup name' =
      (scopeAfter (earlier ++ later) id).lookup name'
  /-- The scopes around its scope, and those beside it, are elsewhere. -/
  outside : ∀ around, Path (outers (earlier ++ later)) other around → id ≠ other →
    id ∈ around ∨ ids.tail = around.tail → other ∉ ids

theorem Records.storeSeen {other : Nat} {name : Text} {info : Info}
    (h : (root.afterAll (earlier ++ .store other name info :: later)).Records
      (earlier ++ .store other name info :: later))
    (h' : (root.afterAll (earlier ++ later)).Records (earlier ++ later))
    (path : Path (outers (earlier ++ later)) id ids)
    (around : ids = id :: (root.afterAll (earlier ++ .store other name info :: later)).around id)
    (around' : ids = id :: (root.afterAll (earlier ++ later)).around id) :
    StoreSeen earlier other name info later id ids where
  within before after split never last := by
    have nearest : Nearest (earlier ++ .store other name info :: later) ids name info :=
      ⟨before, other, after, split, never, earlier, later, rfl, last⟩
    rw [around] at nearest
    exact ((h.shows id).found name info).mpr nearest
  elsewhere apart name' := by
    rw [scopeAfter, scopeAfter, h.lookup, h'.lookup, ← around, ← around']
    exact findSome_latest_without apart name name' info
  outside _ path' different apart := path.not_mem h'.backward path' different apart

/-- After any calls on scopes a name stands for what was stored last in the nearest scope on the way
to the root that ever received it, and for nothing where none did. -/
theorem calls_shown (legal : Legal calls) (id : Nat) (opened : id ≤ (outers calls).length) :
    ∃ ids, Path (outers calls) id ids ∧ Shows calls ids (scopeAfter calls id) ∧
      ∀ earlier other name info later, calls = earlier ++ .store other name info :: later →
        StoreSeen earlier other name info later id ids := by
  have h := records_of_legal legal
  have path := h.paths id (h.opened ▸ Nat.lt_succ_of_le opened)
  refine ⟨_, path, h.shows id, ?_⟩
  rintro earlier other name info later rfl
  have h' := records_of_legal legal.without
  rw [outers_without] at path opened
  have path' := h'.paths id (h'.opened ▸ Nat.lt_succ_of_le opened)
  exact h.storeSeen h' path rfl (path.unique path')

/-- A function stored in the scope 1 hides the binding of the root from the scope 2, which was
opened before; the scope 3 was opened later in the root, and sees what was bound there last. -/
theorem calls_shown_hidden :
    let calls := [.child 0, .store 0 ['a'] (.binding (.number 1)), .child 1,
      .store 1 ['a'] (.function [] (.expr (.usage ['a']))), .child 0,
      .store 0 ['a'] (.binding (.number 2))]
    Legal calls ∧ Path (outers calls) 2 [2, 1, 0] ∧
      Nearest calls [2, 1, 0] ['a'] (.function [] (.expr (.usage ['a']))) ∧
      (∀ v, ¬ Nearest calls [2, 1, 0] ['a'] (.binding v)) ∧
      (scopeAfter calls 2).binding ['a'] = .error (.missingBinding ['a']) ∧
      Nearest calls [3, 0] ['a'] (.binding (.number 2)) := by
  intro calls
  have legal : Legal calls := by
    simp only [calls, Legal, LegalFrom]
    decide
  obtain ⟨ids, path, shows, -⟩ := calls_shown legal 2 (by decide)
  obtain ⟨ids', path', shows', -⟩ := calls_shown legal 3 (by decide)
  obtain rfl : ids = [2, 1, 0] := path.unique (.within rfl (.within rfl .root))
  obtain rfl : ids' = [3, 0] := path'.unique (.within rfl .root)
  have failed : (scopeAfter calls 2).binding ['a'] = .error (.missingBinding ['a']) := rfl
  refine ⟨legal, path, (shows.found _ _).mp (by decide), ?_, failed,
    (shows'.found _ _).mp (by decide)⟩
  intro v nearest
  cases failed.symm.trans ((shows.binding _ v).mpr nearest)

end
end ScopeTree
end BlockCalc
