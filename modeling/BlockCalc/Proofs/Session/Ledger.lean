import BlockCalc.Scope.Evaluation
import BlockCalc.Grammar.Parse
/-! A ledger of statements. It gives every statement that is added to a session a number of its own
and a place in the order, and it keeps in a queue those that wait, in a list those that were replaced
by a later one, and in a record what was evaluated, with its answer, and what was taken back. The
queue and the lists share out the statements among them: none is lost and none is there twice. -/
namespace BlockCalc

inductive Call where
  | add (source : Text) (number : Int)
  | run
  | pop
  deriving DecidableEq, Repr

def Call.entry? (limit : Nat) : Call → Option (Int × Text × Stmt)
  | .add source number =>
    match parse source limit with
    | .ok tree => some (number, source, tree)
    | .error _ => none
  | .run | .pop => none

/-- A statement that was added, and how it waits. A statement that replaces another gets its place.
-/
structure Ticket where
  id : Nat
  place : Nat
  number : Int
  source : Text
  tree : Stmt
  deriving DecidableEq

def Ticket.entry (t : Ticket) : Int × Text × Stmt := (t.number, t.source, t.tree)

inductive Event where
  | evaluated (ticket : Ticket) (answer : Except EvalError Value)
  | popped

def Event.evaluation? : Event → Option (Ticket × Except EvalError Value)
  | .evaluated ticket answer => some (ticket, answer)
  | .popped => none

/-- The stack of values: an evaluation with a value puts it on top, and the top is taken back. -/
def Event.stacked (values : List Value) : Event → List Value
  | .evaluated _ (.ok v) => values ++ [v]
  | .evaluated _ (.error _) => values
  | .popped => values.dropLast

/-- A statement that was replaced stands beside the one that replaced it. -/
structure Ledger where
  issued : List Ticket
  waiting : List Ticket
  replaced : List (Ticket × Ticket)
  events : List Event
  scope : Scope

namespace Ledger

def empty : Ledger := ⟨[], [], [], [], .root⟩

def evaluated (l : Ledger) : List (Ticket × Except EvalError Value) :=
  l.events.filterMap Event.evaluation?

def results (l : Ledger) : List Value := l.events.foldl Event.stacked []

/-- The ticket of a statement goes to the end of the queue, or to the place of the one that waits
under the same number. -/
def issue (l : Ledger) (number : Int) (source : Text) (tree : Stmt) : Ledger :=
  match l.waiting.find? fun w => w.number = number with
  | none =>
    let ticket : Ticket := ⟨l.issued.length, l.issued.length, number, source, tree⟩
    { l with issued := l.issued ++ [ticket], waiting := l.waiting ++ [ticket] }
  | some old =>
    let ticket : Ticket := ⟨l.issued.length, old.place, number, source, tree⟩
    { l with
      issued := l.issued ++ [ticket]
      waiting := l.waiting.map fun w => if w.number = number then ticket else w
      replaced := l.replaced ++ [(old, ticket)] }

/-- Takes a ticket from the head of the queue, which goes on as `rest`. -/
def serve (l : Ledger) (ticket : Ticket) (rest : List Ticket) : Ledger :=
  { l with
    waiting := rest
    events := l.events ++ [.evaluated ticket (ticket.tree.eval l.scope).1]
    scope := (ticket.tree.eval l.scope).2 }

/-- Serves the queue from its head up to the first failure. -/
def serveAll : List Ticket → Ledger → Ledger
  | [], l => l
  | ticket :: rest, l =>
    match (ticket.tree.eval l.scope).1 with
    | .error _ => l.serve ticket rest
    | .ok _ => serveAll rest (l.serve ticket rest)

def after (l : Ledger) (limit : Nat) : Call → Ledger
  | .add source number =>
    match parse source limit with
    | .ok tree => l.issue number source tree
    | .error _ => l
  | .run => serveAll l.waiting l
  | .pop => { l with events := l.events ++ [.popped] }

def afterAll (l : Ledger) (limit : Nat) (calls : List Call) : Ledger :=
  calls.foldl (fun l call => l.after limit call) l

end Ledger

/-- Evaluations one after the other, each with the answer that it has in the scope left by those
before it. -/
inductive InTurn (start : Scope) : List (Ticket × Except EvalError Value) → Scope → Prop
  | nil : InTurn start [] start
  | snoc {done scope} (ticket : Ticket) : InTurn start done scope →
      InTurn start (done ++ [(ticket, (ticket.tree.eval scope).1)]) (ticket.tree.eval scope).2

/-- What holds of a ledger after any calls. -/
structure Ledger.Sound (l : Ledger) (limit : Nat) : Prop where
  /-- Every statement was evaluated, waits or was replaced: one of these, and that once. -/
  accounted : (l.evaluated.map Prod.fst ++ (l.waiting ++ l.replaced.map Prod.fst)).Perm l.issued
  numbered : l.issued.map Ticket.id = List.range l.issued.length
  read : ∀ t ∈ l.issued, parse t.source limit = .ok t.tree
  placed : ∀ t ∈ l.issued, t.place < l.issued.length
  /-- A statement that replaces none has the last place. -/
  arrived : ∀ t ∈ l.issued, t.place = t.id ∨ ∃ old, (old, t) ∈ l.replaced
  /-- Statements are evaluated in the order in which they wait. -/
  ordered : ((l.evaluated.map Prod.fst ++ l.waiting).map Ticket.place).Pairwise (· < ·)
  /-- A statement is replaced by a later one, which takes over its number and its place. -/
  succeeded : ∀ old new, (old, new) ∈ l.replaced →
    new ∈ l.issued ∧ old.id < new.id ∧ new.number = old.number ∧ new.place = old.place
  inTurn : InTurn .root l.evaluated l.scope

namespace Ledger
variable {l : Ledger} {ticket old : Ticket} {rest : List Ticket} {number : Int} {source : Text}
  {tree : Stmt} {limit : Nat}

theorem empty_sound (limit : Nat) : empty.Sound limit where
  accounted := .refl _
  numbered := rfl
  read := List.forall_mem_nil _
  placed := List.forall_mem_nil _
  arrived := List.forall_mem_nil _
  ordered := .nil
  succeeded := by
    intro old new member
    cases member
  inTurn := .nil

/-! ## Issuing -/

@[simp] theorem issue_events (l : Ledger) (number : Int) (source : Text) (tree : Stmt) :
    (l.issue number source tree).events = l.events := by
  rw [issue]
  split <;> rfl

@[simp] theorem issue_scope (l : Ledger) (number : Int) (source : Text) (tree : Stmt) :
    (l.issue number source tree).scope = l.scope := by
  rw [issue]
  split <;> rfl

theorem Sound.id_lt (h : l.Sound limit) (member : ticket ∈ l.issued) :
    ticket.id < l.issued.length := by
  have listed : ticket.id ∈ l.issued.map Ticket.id := List.mem_map_of_mem member
  rw [h.numbered] at listed
  exact List.mem_range.mp listed

theorem Sound.mem_issued_of_queued (h : l.Sound limit)
    (member : ticket ∈ l.evaluated.map Prod.fst ++ l.waiting) : ticket ∈ l.issued := by
  apply h.accounted.mem_iff.mp
  rw [← List.append_assoc]
  exact List.mem_append_left _ member

theorem Sound.numbered_snoc (h : l.Sound limit) (same : ticket.id = l.issued.length) :
    (l.issued ++ [ticket]).map Ticket.id = List.range (l.issued ++ [ticket]).length := by
  rw [List.map_append, h.numbered, List.length_append, List.length_singleton, List.range_succ,
    List.map_singleton, same]

theorem Sound.read_snoc (h : l.Sound limit) (valid : parse ticket.source limit = .ok ticket.tree) :
    ∀ t ∈ l.issued ++ [ticket], parse t.source limit = .ok t.tree := by
  intro t member
  rcases List.mem_append.mp member with earlier | here
  · exact h.read t earlier
  · rw [List.mem_singleton.mp here]
    exact valid

theorem Sound.placed_snoc (h : l.Sound limit) (bound : ticket.place ≤ l.issued.length) :
    ∀ t ∈ l.issued ++ [ticket], t.place < (l.issued ++ [ticket]).length := by
  intro t member
  rw [List.length_append, List.length_singleton]
  rcases List.mem_append.mp member with earlier | here
  · exact Nat.lt_succ_of_lt (h.placed t earlier)
  · rw [List.mem_singleton.mp here]
    omega

theorem Sound.succeeded_snoc (h : l.Sound limit) (ticket : Ticket) {old new : Ticket}
    (member : (old, new) ∈ l.replaced) : new ∈ l.issued ++ [ticket] ∧ old.id < new.id ∧
      new.number = old.number ∧ new.place = old.place := by
  obtain ⟨listed, facts⟩ := h.succeeded old new member
  exact ⟨List.mem_append_left _ listed, facts⟩

/-- A ticket goes into the queue, in the place of those that it replaces. -/
theorem Sound.issued {before after : List Ticket} (h : l.Sound limit) (ticket : Ticket)
    (olds : List Ticket) (queue : l.waiting = before ++ (olds ++ after))
    (same : ticket.id = l.issued.length)
    (valid : parse ticket.source limit = .ok ticket.tree)
    (bound : ticket.place ≤ l.issued.length)
    (ordered : ((l.evaluated.map Prod.fst ++ (before ++ ticket :: after)).map
      Ticket.place).Pairwise (· < ·))
    (replaces : ∀ old ∈ olds, ticket.number = old.number ∧ ticket.place = old.place)
    (last : olds = [] → ticket.place = ticket.id) :
    Sound { l with
      issued := l.issued ++ [ticket]
      waiting := before ++ ticket :: after
      replaced := l.replaced ++ olds.map fun old => (old, ticket) } limit where
  accounted := by
    -- The olds move from the queue to those replaced; what is counted of a ticket stays the same.
    apply List.perm_iff_count.mpr
    intro t
    have balance := h.accounted.count_eq t
    have kept : (olds.map fun old => (old, ticket)).map Prod.fst = olds := by
      rw [List.map_map]
      exact List.map_id olds
    simp only [queue, List.map_append, List.count_append, List.count_cons, kept,
      List.count_nil] at balance ⊢
    change List.count t (l.evaluated.map Prod.fst) + _ = _
    omega
  numbered := h.numbered_snoc same
  read := h.read_snoc valid
  placed := h.placed_snoc bound
  arrived := by
    intro t member
    rcases List.mem_append.mp member with earlier | here
    · refine (h.arrived t earlier).imp_right ?_
      exact fun ⟨old, replaced⟩ => ⟨old, List.mem_append_left _ replaced⟩
    · rw [List.mem_singleton.mp here]
      cases olds with
      | nil => exact .inl (last rfl)
      | cons old olds => exact .inr ⟨old, List.mem_append_right _ List.mem_cons_self⟩
  ordered := ordered
  succeeded := by
    intro old new member
    rcases List.mem_append.mp member with earlier | here
    · exact h.succeeded_snoc ticket earlier
    · obtain ⟨old, among, pair⟩ := List.mem_map.mp here
      cases pair
      have queued : old ∈ l.evaluated.map Prod.fst ++ l.waiting := by
        rw [queue]
        exact List.mem_append_right _ (List.mem_append_right _ (List.mem_append_left _ among))
      have earlier := h.id_lt (h.mem_issued_of_queued queued)
      rw [← same] at earlier
      exact ⟨List.mem_append_right _ (List.mem_singleton.mpr rfl), earlier, replaces old among⟩
  inTurn := h.inTurn

theorem number_ne_of_not_found (missing : l.waiting.find? (fun w => w.number = number) = none) :
    ∀ w ∈ l.waiting, w.number ≠ number := by
  intro w member
  exact of_decide_eq_false (Bool.eq_false_iff.mpr (List.find?_eq_none.mp missing w member))

/-- The statement that waits under a number is the only one that does. -/
theorem split_at_number (apart : (l.waiting.map Ticket.number).Nodup)
    (found : l.waiting.find? (fun w => w.number = number) = some old) :
    ∃ before after, l.waiting = before ++ old :: after ∧ old.number = number ∧
      ∀ w ∈ before ++ after, w.number ≠ number := by
  obtain ⟨here, before, after, queue, others⟩ := List.find?_eq_some_iff_append.mp found
  have here : old.number = number := of_decide_eq_true here
  refine ⟨before, after, queue, here, ?_⟩
  intro w member same
  rcases List.mem_append.mp member with ahead | behind
  · have other := others w ahead
    simp only [same, decide_true, Bool.not_true, Bool.false_eq_true] at other
  · rw [queue, List.map_append, List.map_cons] at apart
    have fresh := (List.nodup_cons.mp (List.pairwise_append.mp apart).2.1).1
    rw [here, ← same] at fresh
    exact fresh (List.mem_map_of_mem behind)

theorem map_replace {before after : List Ticket} (here : old.number = number)
    (others : ∀ w ∈ before ++ after, w.number ≠ number) (ticket : Ticket) :
    (before ++ old :: after).map (fun w => if w.number = number then ticket else w) =
      before ++ ticket :: after := by
  have keep : ∀ tickets : List Ticket, (∀ w ∈ tickets, w.number ≠ number) →
      tickets.map (fun w => if w.number = number then ticket else w) = tickets := by
    intro tickets other
    refine (List.map_congr_left ?_).trans (List.map_id tickets)
    intro w member
    exact if_neg (other w member)
  obtain ⟨ahead, behind⟩ := List.forall_mem_append.mp others
  rw [List.map_append, List.map_cons, keep before ahead, keep after behind, if_pos here]

theorem Sound.issue (h : l.Sound limit) (apart : (l.waiting.map Ticket.number).Nodup)
    (valid : parse source limit = .ok tree) (number : Int) :
    (l.issue number source tree).Sound limit := by
  cases found : l.waiting.find? fun w => w.number = number with
  | none =>
      have queue : l.waiting = l.waiting ++ ([] ++ []) := (List.append_nil _).symm
      have queued := h.issued ⟨l.issued.length, l.issued.length, number, source, tree⟩ [] queue rfl
        valid (Nat.le_refl _) ?_ (List.forall_mem_nil _) fun _ => rfl
      · simp only [List.map_nil, List.append_nil] at queued
        simp only [Ledger.issue, found]
        exact queued
      · rw [← List.append_assoc, List.map_append]
        refine List.pairwise_append.mpr ⟨h.ordered, List.pairwise_singleton _ _, ?_⟩
        intro m earlier n here
        obtain ⟨w, member, rfl⟩ := List.mem_map.mp earlier
        rw [List.mem_singleton.mp here]
        exact h.placed w (h.mem_issued_of_queued member)
  | some old =>
      obtain ⟨before, after, queue, here, others⟩ := split_at_number apart found
      have listed : old ∈ l.issued := by
        apply h.mem_issued_of_queued
        rw [queue]
        exact List.mem_append_right _ (List.mem_append_right before List.mem_cons_self)
      have ordered := h.ordered
      have taken := h.issued ⟨l.issued.length, old.place, number, source, tree⟩ [old] queue rfl valid
        (Nat.le_of_lt (h.placed old listed)) ?_
        (List.forall_mem_singleton.mpr ⟨here.symm, rfl⟩) (nomatch ·)
      · simp only [Ledger.issue, found]
        rw [queue, map_replace here others]
        exact taken
      · rw [queue] at ordered
        simp only [List.map_append, List.map_cons] at ordered ⊢
        exact ordered

/-! ## Serving -/

theorem evaluated_serve (l : Ledger) (ticket : Ticket) (rest : List Ticket) :
    (l.serve ticket rest).evaluated =
      l.evaluated ++ [(ticket, (ticket.tree.eval l.scope).1)] := by
  unfold evaluated Ledger.serve
  rw [List.filterMap_append]
  rfl

theorem Sound.serve (h : l.Sound limit) (queue : l.waiting = ticket :: rest) :
    (l.serve ticket rest).Sound limit := by
  have split : l.evaluated.map Prod.fst ++ l.waiting =
      (l.serve ticket rest).evaluated.map Prod.fst ++ rest := by
    rw [evaluated_serve, queue, List.map_append, List.append_assoc]
    rfl
  have accounted := h.accounted
  have ordered := h.ordered
  rw [← List.append_assoc, split, List.append_assoc] at accounted
  rw [split] at ordered
  exact {
    accounted
    numbered := h.numbered
    read := h.read
    placed := h.placed
    arrived := h.arrived
    ordered
    succeeded := h.succeeded
    inTurn := by
      rw [evaluated_serve]
      exact .snoc ticket h.inTurn }

theorem Sound.serveAll (h : l.Sound limit) (queue : l.waiting = rest) :
    (serveAll rest l).Sound limit := by
  induction rest generalizing l with
  | nil => exact h
  | cons ticket rest ih =>
      have served := h.serve queue
      rw [Ledger.serveAll]
      split
      · exact served
      · exact ih served rfl

theorem Sound.pop (h : l.Sound limit) :
    Sound { l with events := l.events ++ [.popped] } limit := by
  have same : evaluated { l with events := l.events ++ [.popped] } = l.evaluated := by
    rw [evaluated, List.filterMap_append]
    exact List.append_nil _
  exact {
    accounted := by
      rw [same]
      exact h.accounted
    numbered := h.numbered
    read := h.read
    placed := h.placed
    arrived := h.arrived
    ordered := by
      rw [same]
      exact h.ordered
    succeeded := h.succeeded
    inTurn := by
      rw [same]
      exact h.inTurn }

theorem Sound.after (h : l.Sound limit) (apart : (l.waiting.map Ticket.number).Nodup)
    (call : Call) : (l.after limit call).Sound limit := by
  cases call with
  | add source number =>
      rw [Ledger.after]
      split
      · next valid => exact h.issue apart valid number
      · exact h
  | run => exact h.serveAll rfl
  | pop => exact h.pop

/-! ## What was issued -/

theorem issued_serveAll (tickets : List Ticket) (l : Ledger) :
    (serveAll tickets l).issued = l.issued := by
  induction tickets generalizing l with
  | nil => rfl
  | cons ticket rest ih =>
      rw [Ledger.serveAll]
      split
      · rfl
      · exact ih _

theorem issued_after (l : Ledger) (limit : Nat) (call : Call) :
    (l.after limit call).issued.map Ticket.entry =
      l.issued.map Ticket.entry ++ (call.entry? limit).toList := by
  cases call with
  | add source number =>
      rw [after, Call.entry?]
      cases parse source limit with
      | error failure => exact (List.append_nil _).symm
      | ok tree =>
          dsimp only
          rw [issue]
          split
          all_goals
            rw [List.map_append]
            rfl
  | run =>
      rw [after, issued_serveAll]
      exact (List.append_nil _).symm
  | pop => exact (List.append_nil _).symm

/-- The statements in the ledger are those that the calls added, in order. -/
theorem issued_afterAll (l : Ledger) (limit : Nat) (calls : List Call) :
    (l.afterAll limit calls).issued.map Ticket.entry =
      l.issued.map Ticket.entry ++ calls.filterMap (Call.entry? limit) := by
  induction calls generalizing l with
  | nil => exact (List.append_nil _).symm
  | cons call calls ih =>
      have later := ih (l.after limit call)
      rw [issued_after, List.append_assoc] at later
      rw [List.filterMap_cons]
      cases added : call.entry? limit with
      | none =>
          rw [added] at later
          exact later
      | some entry =>
          rw [added] at later
          exact later

end Ledger
end BlockCalc
