import BlockCalc.Proofs.Session.Ledger
import BlockCalc.Proofs.Session.OnFile
import BlockCalc.Proofs.Grammar.Answers
/-! Sessions over their histories. A session keeps its statements in a table and works on a snapshot of
it; the ledger keeps a queue and a record. After any calls, whether they failed or not, the table
holds what the queue holds, in the same order, and values and scope are those of the record. -/
namespace BlockCalc

namespace Table
variable {κ α : Type} [DecidableEq κ] {key : κ} {before after : List (κ × α)}

theorem insertEntry_split (other : ∀ entry ∈ before, entry.1 ≠ key) (old value : α) :
    insertEntry key value (before ++ (key, old) :: after) = before ++ (key, value) :: after := by
  induction before with
  | nil => exact if_pos rfl
  | cons entry before ih =>
      obtain ⟨k, v⟩ := entry
      obtain ⟨first, later⟩ := List.forall_mem_cons.mp other
      rw [List.cons_append, insertEntry, if_neg first, ih later, List.cons_append]

end Table

namespace Session
variable {s : Session} {l : Ledger} {ticket : Ticket} {rest : List Ticket} {source : Text}
  {number : Int} {tree : Stmt} {limit : Nat}

def after (s : Session) : Call → Session
  | .add source number => (s.add source number).state
  | .run => s.run.state
  | .pop => s.pop.state

def afterAll (s : Session) (calls : List Call) : Session := calls.foldl after s

/-- A session that stands where a ledger stands. -/
structure Matches (s : Session) (limit : Nat) (l : Ledger) : Prop where
  limit : s.limit = limit
  pending : s.pending.entries = l.waiting.map Ticket.entry
  results : s.results = l.results
  scope : s.scope = l.scope

/-- A run goes through the whole queue, or stops with the error of the statement that it evaluated
last. -/
inductive Served (l : Ledger) : Except Stop Unit → Prop
  | all : l.waiting = [] → Served l (.ok ())
  | upTo {done ticket e} : l.evaluated = done ++ [(ticket, .error e)] →
      Served l (.error (.message e.message))

theorem fresh_matches (reporter : Reporter) (path : Text) (interactive : Bool) (limit : Nat) :
    (fresh reporter path interactive limit).Matches limit .empty := ⟨rfl, rfl, rfl, rfl⟩

/-- The table of the session keeps the numbers in the queue apart. -/
theorem Matches.apart (h : s.Matches limit l) : (l.waiting.map Ticket.number).Nodup := by
  have distinct := s.pending.distinct
  rw [h.pending, List.map_map] at distinct
  exact distinct

theorem entry_ne {tickets : List Ticket} (other : ∀ w ∈ tickets, w.number ≠ number) :
    ∀ entry ∈ tickets.map Ticket.entry, entry.1 ≠ number := by
  intro entry member
  obtain ⟨w, inside, rfl⟩ := List.mem_map.mp member
  exact other w inside

/-! ## Adding -/

theorem insertEntry_issue (apart : (l.waiting.map Ticket.number).Nodup) :
    Table.insertEntry number (source, tree) (l.waiting.map Ticket.entry) =
      (l.issue number source tree).waiting.map Ticket.entry := by
  rw [Ledger.issue]
  split
  · next found =>
      have fresh : number ∉ (l.waiting.map Ticket.entry).map Prod.fst := by
        intro member
        obtain ⟨entry, inside, same⟩ := List.mem_map.mp member
        exact entry_ne (Ledger.number_ne_of_not_found found) entry inside same
      rw [Table.insertEntry_of_new fresh, List.map_append]
      rfl
  · next old found =>
      obtain ⟨before, after, queue, here, others⟩ := Ledger.split_at_number apart found
      obtain ⟨ahead, -⟩ := List.forall_mem_append.mp others
      dsimp only
      rw [queue, Ledger.map_replace here others, List.map_append, List.map_append, List.map_cons,
        List.map_cons, Ticket.entry, here]
      exact Table.insertEntry_split (entry_ne ahead) (old.source, old.tree) (source, tree)

theorem add_accepted (s : Session) (read : parse source s.limit = .ok tree) (number : Int) :
    ∃ reporter, s.add source number =
      .done { s with reporter, pending := s.pending.insert number (source, tree) } () :=
  ⟨_, add_of_ok s read number⟩

theorem add_refused {failure : Failure} (s : Session)
    (unread : parse source s.limit = .error failure) (number : Int) :
    ∃ reporter, s.add source number = .stopped { s with reporter } failure.stop :=
  ⟨_, add_of_error s unread number⟩

theorem Matches.add_read (h : s.Matches limit l) (read : parse source limit = .ok tree)
    (number : Int) :
    (s.add source number).state.Matches limit (l.issue number source tree) := by
  rw [add_of_ok s (h.limit ▸ read)]
  constructor
  · exact h.limit
  · change Table.insertEntry number (source, tree) s.pending.entries = _
    rw [h.pending]
    exact insertEntry_issue h.apart
  · rw [Ledger.results, Ledger.issue_events]
    exact h.results
  · rw [Ledger.issue_scope]
    exact h.scope

theorem Matches.add_unread {failure : Failure} (h : s.Matches limit l)
    (unread : parse source limit = .error failure) (number : Int) :
    (s.add source number).state.Matches limit l := by
  rw [add_of_error s (h.limit ▸ unread)]
  exact ⟨h.limit, h.pending, h.results, h.scope⟩

/-! ## Evaluating -/

theorem results_serve (l : Ledger) (ticket : Ticket) (rest : List Ticket) :
    (l.serve ticket rest).results =
      Event.stacked l.results (.evaluated ticket (ticket.tree.eval l.scope).1) := by
  unfold Ledger.results Ledger.serve
  rw [List.foldl_append]
  rfl

theorem Matches.erase (h : s.Matches limit l) (queue : l.waiting = ticket :: rest) :
    (s.pending.erase ticket.number).entries = rest.map Ticket.entry := by
  have entries := h.pending
  rw [queue, List.map_cons] at entries
  exact Table.entries_erase_oldest entries

/-- The snapshot is worked on as the queue is served, from the same head up to the same failure. -/
theorem Matches.serveAll (h : s.Matches limit l) (queue : l.waiting = rest) :
    (evaluateAll (rest.map Ticket.entry) s).state.Matches limit (Ledger.serveAll rest l) ∧
      Served (Ledger.serveAll rest l) (evaluateAll (rest.map Ticket.entry) s).ending := by
  induction rest generalizing s l with
  | nil => exact ⟨h, .all queue⟩
  | cons ticket rest ih =>
      have erased := h.erase queue
      have results := results_serve l ticket rest
      have scope : (l.serve ticket rest).scope = (ticket.tree.eval l.scope).2 := rfl
      have record := Ledger.evaluated_serve l ticket rest
      rw [List.map_cons, Ticket.entry, evaluateAll, Ledger.serveAll]
      rw [← h.results] at results
      cases evaluated : ticket.tree.eval l.scope with
      | mk answer next =>
        rw [evaluated] at results scope record
        rw [← h.scope] at evaluated
        cases answer with
        | error e =>
            rw [evaluate_of_error s evaluated]
            exact ⟨⟨h.limit, erased, results.symm, scope.symm⟩, .upTo record⟩
        | ok v =>
            rw [evaluate_of_ok s evaluated]
            refine ih ?_ rfl
            exact ⟨h.limit, erased, results.symm, scope.symm⟩

theorem Matches.run (h : s.Matches limit l) :
    s.run.state.Matches limit (l.after limit .run) ∧ Served (l.after limit .run) s.run.ending := by
  rw [Session.run, Ledger.after, h.pending]
  exact h.serveAll rfl

/-! ## Histories -/

theorem Matches.pop (h : s.Matches limit l) :
    s.pop.state.Matches limit { l with events := l.events ++ [.popped] } := by
  have results : Ledger.results { l with events := l.events ++ [.popped] } =
      s.results.dropLast := by
    rw [h.results, Ledger.results, List.foldl_append]
    rfl
  rw [Session.pop]
  split
  · next none =>
      refine ⟨h.limit, h.pending, ?_, h.scope⟩
      rw [results, List.getLast?_eq_none_iff.mp none]
      exact List.getLast?_eq_none_iff.mp none
  · exact ⟨h.limit, h.pending, results.symm, h.scope⟩

theorem Matches.after (h : s.Matches limit l) (call : Call) :
    (s.after call).Matches limit (l.after limit call) := by
  cases call with
  | add source number =>
      rw [Session.after, Ledger.after]
      cases read : parse source limit with
      | ok tree => exact h.add_read read number
      | error failure => exact h.add_unread read number
  | run => exact h.run.1
  | pop => exact h.pop

theorem Matches.afterAll (h : s.Matches limit l) (sound : l.Sound limit) (calls : List Call) :
    (s.afterAll calls).Matches limit (l.afterAll limit calls) ∧
      (l.afterAll limit calls).Sound limit := by
  induction calls generalizing s l with
  | nil => exact ⟨h, sound⟩
  | cons call calls ih => exact ih (h.after call) (sound.after h.apart call)

/-- A statement that waits is found under its number. -/
theorem Matches.find (h : s.Matches limit l) (member : ticket ∈ l.waiting) :
    s.pending.find? ticket.number = some (ticket.source, ticket.tree) := by
  apply Table.find?_eq_some_iff_mem.mpr
  rw [h.pending]
  exact List.mem_map_of_mem member

/-- Statements that can all be read are added one after the other. -/
theorem addAll_state {statements : List (Text × Nat)} (all : (addAll statements s).ending = .ok ()) :
    (addAll statements s).state =
      s.afterAll (statements.map fun statement => .add statement.1 statement.2) := by
  induction statements generalizing s with
  | nil => rfl
  | cons statement statements ih =>
      obtain ⟨source, number⟩ := statement
      rw [addAll, Run.andThen] at all ⊢
      cases ending : (s.add source number).ending with
      | error stop =>
          rw [ending] at all
          cases all
      | ok answer =>
          rw [ending] at all
          exact ih all

/-- A session on a file that can be opened is one to which the statements of the file were added. -/
theorem start_afterAll {reporter : Reporter} {path : Text} {interactive : Bool} {files : Files}
    (started : start reporter path interactive files limit = .ok s) :
    ∃ statements : List (Text × Nat), s = (fresh reporter path interactive limit).afterAll
      (statements.map fun statement => .add statement.1 statement.2) := by
  unfold start at started
  dsimp only at started
  split at started
  · split at started
    · cases started
      exact ⟨[], rfl⟩
    · cases started
  · split at started
    · cases started
    · split at started
      · cases started
      · split at started
        · cases started
        · next text decoded =>
            split at started
            · cases started
            · next ending =>
                cases started
                exact ⟨Statements.ofText text, addAll_state ending⟩

end Session

/-- What became of the statements that some calls added: a ledger has each of them, and the session
stands where the ledger stands. -/
structure Accounted (limit : Nat) (calls : List Call) (s : Session) (l : Ledger) : Prop where
  sound : l.Sound limit
  apart : (l.waiting.map Ticket.number).Nodup
  issued : l.issued.map Ticket.entry = calls.filterMap (Call.entry? limit)
  pending : s.pending.entries = l.waiting.map Ticket.entry
  found : ∀ t ∈ l.waiting, s.pending.find? t.number = some (t.source, t.tree)
  results : s.results = l.results
  scope : s.scope = l.scope
  /-- How a further run would end. -/
  served : Session.Served (l.after limit .run) s.run.ending

theorem afterAll_accounted (reporter : Reporter) (path : Text) (interactive : Bool) (limit : Nat)
    (calls : List Call) :
    Accounted limit calls ((Session.fresh reporter path interactive limit).afterAll calls)
      (Ledger.empty.afterAll limit calls) := by
  have fresh := Session.fresh_matches reporter path interactive limit
  obtain ⟨same, sound⟩ := fresh.afterAll (Ledger.empty_sound limit) calls
  exact {
    sound
    apart := same.apart
    issued := Ledger.issued_afterAll .empty limit calls
    pending := same.pending
    found := fun _ member => same.find member
    results := same.results
    scope := same.scope
    served := same.run.2 }

/-- After any calls each statement that was added waits, was replaced or was evaluated. One that cannot
be read changes nothing but the mark, and opening a file adds its statements. -/
theorem calls_accounted (reporter : Reporter) (path : Text) (interactive : Bool) (limit : Nat) :
    (∀ calls,
      Accounted limit calls ((Session.fresh reporter path interactive limit).afterAll calls)
        (Ledger.empty.afterAll limit calls)) ∧
    (∀ (s : Session) source number, match parse source s.limit with
      | .ok _ => (s.add source number).ending = .ok ()
      | .error failure =>
        ∃ reporter, s.add source number = .stopped { s with reporter } failure.stop) ∧
    (∀ (s : Session) values v, s.results = values ++ [v] →
      s.pop = .done { s with results := values } v) ∧
    ∀ files s, Session.start reporter path interactive files limit = .ok s →
      ∃ statements : List (Text × Nat), s = (Session.fresh reporter path interactive limit).afterAll
        (statements.map fun statement => .add statement.1 statement.2) := by
  refine ⟨afterAll_accounted reporter path interactive limit, ?_, ?_, ?_⟩
  · intro s source number
    cases read : parse source s.limit with
    | ok tree =>
        obtain ⟨reporter, added⟩ := Session.add_accepted s read number
        exact congrArg Run.ending added
    | error failure => exact Session.add_refused s read number
  · intro s values v top
    rw [Session.pop, top, List.getLast?_concat, List.dropLast_concat]
  · intro files s started
    exact Session.start_afterAll started

/-- A statement that fails, one that is replaced, and one that waits until a second run. -/
theorem calls_accounted_failing :
    let calls := [.add "1 / 0".toList 1, .add ['x'] 2, .add ['2'] 2, .add ['\x7b'] 3, .run, .run]
    let s := (Session.fresh (.fresh false .plain) inputPath true).afterAll calls
    let failing : Ticket := ⟨0, 0, 1, "1 / 0".toList, .expr (.operation (.number 1) (.number 0) .div)⟩
    let replaced : Ticket := ⟨1, 1, 2, ['x'], .expr (.usage ['x'])⟩
    let last : Ticket := ⟨2, 1, 2, ['2'], .expr (.number 2)⟩
    let l : Ledger := ⟨[failing, replaced, last], [], [(replaced, last)],
      [.evaluated failing (.error .divisionByZero), .evaluated last (.ok (.number 2))], .root⟩
    Accounted nestingLimit calls s l ∧ s.pop = .done { s with results := [] } (.number 2) := by
  intro calls s failing replaced last l
  have division : parse "1 / 0".toList = .ok failing.tree := by decide +kernel
  have usage : parse ['x'] = .ok replaced.tree := by decide +kernel
  have number : parse ['2'] = .ok last.tree := by decide +kernel
  have unread : parse ['\x7b'] = .error (.mismatch (.expected ['\x7d'])) := by decide +kernel
  have ledger : Ledger.empty.afterAll nestingLimit calls = l := by
    simp only [calls, Ledger.afterAll, List.foldl_cons, List.foldl_nil, Ledger.after, division,
      usage, number, unread]
    rfl
  obtain ⟨accounted, -, popped, -⟩ :=
    calls_accounted (.fresh false .plain) inputPath true nestingLimit
  have holds := accounted calls
  rw [ledger] at holds
  exact ⟨holds, popped s [] (.number 2) holds.results⟩

end BlockCalc
