import BlockCalc.Proofs.Session.Continuation
import BlockCalc.Proofs.Session.History
import BlockCalc.Proofs.Session.Statements
import BlockCalc.Proofs.Tree.OpenLines
import BlockCalc.Proofs.Tree.RoundTrip
/-! Programs that are written to a file and loaded again. In the canonical texts of statements, one
after the other, the lines are put together to these texts again: no line is a statement before its
text is complete, and none loses anything to trimming. -/
namespace BlockCalc
open Grammar

/-- The canonical texts of statements, each ended by a newline. -/
def Stmt.program (ts : List Stmt) : Text := ts.flatMap fun t => t.render ++ ['\n']

def Stmt.height (t : Stmt) : Nat := (Text.physicalLines t.render).length

def Stmt.heights : List Stmt → Nat
  | [] => 0
  | t :: ts => t.height + Stmt.heights ts

/-- The statements of a program with the numbers of their first lines. -/
def Stmt.numbered (number : Nat) : List Stmt → List (Text × Nat)
  | [] => []
  | t :: ts => (t.render, number) :: Stmt.numbered (number + t.height) ts

namespace Statements
variable {begun : Option (Text × Nat)} {number start blocks : Nat} {previous line s a b : Text}
  {lines : List Text}

/-! ## Lines put together -/

/-- Lines behind the ones that they continue, as they are. -/
def glue (previous s : Text) : Text := if previous.isEmpty then s else previous ++ '\n' :: s

theorem glue_nil (s : Text) : glue [] s = s := rfl

theorem glue_eq (h : previous ≠ []) (s : Text) : glue previous s = previous ++ '\n' :: s :=
  if_neg fun none => h (List.isEmpty_iff.mp none)

theorem glue_ne_nil (h : s ≠ []) (previous : Text) : glue previous s ≠ [] := by
  by_cases none : previous = []
  · rw [none]
    exact h
  · rw [glue_eq none]
    exact List.append_ne_nil_of_left_ne_nil none _

theorem glue_glue (h : a ≠ []) (previous b : Text) :
    glue (glue previous a) b = glue previous (a ++ '\n' :: b) := by
  rw [glue_eq (glue_ne_nil h previous)]
  by_cases none : previous = []
  · rw [none, glue_nil, glue_nil]
  · rw [glue_eq none, glue_eq none, List.append_assoc, List.cons_append]

theorem count_glue {c : Char} (h : c ≠ '\n') (previous s : Text) :
    (glue previous s).count c = previous.count c + s.count c := by
  by_cases none : previous = []
  · rw [none, glue_nil, List.count_nil, Nat.zero_add]
  · rw [glue_eq none, List.count_append, List.count_cons_of_ne h.symm]

/-- The blocks that are open behind some lines are those that a further line starts with. -/
theorem count_glue_behind {last : Standing} (held : Standing.behind ⟨blocks, false⟩ s = some last)
    (opened : previous.count '{' = previous.count '}' + blocks) :
    (glue previous s).count '{' = (glue previous s).count '}' + last.blocks := by
  have counts : blocks + s.count '{' = last.blocks + s.count '}' := Standing.count_behind held
  rw [count_glue (by decide), count_glue (by decide)]
  omega

theorem leavesOpen_eq (opened : s.count '{' = s.count '}' + blocks) :
    leavesOpen s = decide (0 < blocks) := by
  apply decide_eq_decide.mpr
  omega

/-- A line that has no blanks to lose is joined as it is. -/
theorem join_eq_glue (trimmed : line.trimEnd = line)
    (first : previous = [] → ahead isBlank line = false) :
    join previous line = glue previous line := by
  by_cases none : previous = []
  · rw [none, join_nil, glue_nil, Text.trim, trimStart_eq_self (first none), trimmed]
  · rw [join_eq none, glue_eq none, trimmed]

/-- A text that has a block open at the end of each of its lines but the last makes one statement,
together with what was begun before it. -/
theorem fromLines_behind (held : Standing.behind ⟨blocks, false⟩ s = some ⟨0, true⟩)
    (goes : begun.getD ([], number) = (previous, start))
    (opened : previous.count '{' = previous.count '}' + blocks)
    (first : previous = [] → ahead isBlank s = false) (more : Text) :
    fromLines number begun (Text.physicalLines (s ++ '\n' :: more)) =
      (glue previous s, start) ::
        fromLines (number + (Text.physicalLines s).length) none (Text.physicalLines more) := by
  induction size : s.length using Nat.strongRecOn generalizing s blocks previous begun number with
  | ind size ih =>
      subst size
      -- The first line leaves a block open and the rest goes on behind it, or it is the last.
      by_cases several : '\n' ∈ s
      · obtain ⟨line, rest, rfl, whole⟩ := List.eq_append_cons_of_mem several
        obtain ⟨inside, here, later⟩ := Standing.behind_line held
        obtain ⟨trimmed, text⟩ := Standing.trimEnd_of_behind here rfl
        have first' : previous = [] → ahead isBlank line = false := by
          intro none
          cases line with
          | nil => exact False.elim (text rfl rfl)
          | cons c line => exact first none
        have joined := join_eq_glue trimmed first'
        have opened' := count_glue_behind here opened
        have still : leavesOpen (join previous line) = true := by
          rw [joined, leavesOpen_eq opened']
          rfl
        have shorter : rest.length < (line ++ '\n' :: rest).length := by
          rw [List.length_append, List.length_cons]
          omega
        have goes' : (some (glue previous line, start)).getD ([], number + 1) =
          (glue previous line, start) := rfl
        have others := ih rest.length shorter later goes' opened'
          (fun none => absurd none (glue_ne_nil (text rfl) previous)) rfl
        rw [List.append_assoc, List.cons_append, Text.physicalLines_append_newline whole,
          Text.physicalLines_append_newline whole, fromLines_open goes still, joined, others,
          glue_glue (text rfl), List.length_cons, Nat.add_right_comm, Nat.add_assoc]
      · obtain ⟨trimmed, text⟩ := Standing.trimEnd_of_behind held rfl
        have joined := join_eq_glue trimmed first
        have closed : leavesOpen (join previous s) = false := by
          rw [joined, leavesOpen_eq (count_glue_behind held opened)]
          rfl
        have some : join previous s ≠ [] := by
          rw [joined]
          exact glue_ne_nil (text rfl) previous
        rw [Text.physicalLines_append_newline several, fromLines_closed goes closed some, joined,
          Text.physicalLines_single several (text rfl)]
        rfl

/-- The lines of a program make its statements. -/
theorem fromLines_program {ts : List Stmt} (valid : ∀ t ∈ ts, t.wellFormed = true) :
    fromLines number none (Text.physicalLines (Stmt.program ts)) = Stmt.numbered number ts := by
  induction ts generalizing number with
  | nil => rfl
  | cons t ts ih =>
      obtain ⟨here, others⟩ := List.forall_mem_cons.mp valid
      have first := (Stmt.derives_render here).not_blank rfl
      rw [Stmt.program, List.flatMap_cons, List.append_assoc, List.singleton_append,
        fromLines_behind (Stmt.level_render here ⟨0, false⟩) rfl rfl fun _ => first]
      exact congrArg ((t.render, number) :: ·) (ih others)

end Statements

/-! ## The file of a program -/

section
variable {ts : List Stmt} {limit number : Nat}

theorem plain_of_mem_program (valid : ∀ t ∈ ts, t.wellFormed = true) :
    ∀ c ∈ Stmt.program ts, c = '\n' ∨ 32 ≤ c.toNat ∧ c.toNat ≤ 126 := by
  intro c member
  obtain ⟨t, among, inside⟩ := List.mem_flatMap.mp member
  rcases List.mem_append.mp inside with inside | last
  · exact Standing.plain_of_behind (Stmt.level_render (valid t among) ⟨0, false⟩) c inside
  · exact .inl (List.mem_singleton.mp last)

/-- The statements of the file that a program makes are those of the program. -/
theorem ofText_program (valid : ∀ t ∈ ts, t.wellFormed = true) :
    Statements.ofText (Stmt.program ts) = Stmt.numbered 1 ts := by
  have unified : Text.unifyNewlines (Stmt.program ts) = Stmt.program ts := by
    refine Text.unifyNewlines_eq_self fun member => ?_
    exact absurd (plain_of_mem_program valid '\r' member) (by decide)
  rw [Statements.ofText, unified]
  exact Statements.fromLines_program valid

theorem decodeFrom_ascii {text : Text} (plain : ∀ c ∈ text, c.toNat < 128) (position : Nat) :
    Encoding.decodeFrom position (text.map Char.toUInt8) = .ok text := by
  induction text generalizing position with
  | nil => rw [List.map_nil, Encoding.decodeFrom]
  | cons c text ih =>
      obtain ⟨first, others⟩ := List.forall_mem_cons.mp plain
      have byte : c.toUInt8.toNat = c.toNat := by
        have wrapped : c.toUInt8.toNat = c.toNat % 256 := UInt32.toNat_toUInt8 c.val
        omega
      have one : c.toUInt8.toNat < 128 := byte ▸ first
      rw [List.map_cons, Encoding.decodeFrom, if_pos one, ih others, byte, Char.ofNat_toNat]
      rfl

theorem decode_program (valid : ∀ t ∈ ts, t.wellFormed = true) :
    Encoding.decode ((Stmt.program ts).map Char.toUInt8) = .ok (Stmt.program ts) := by
  apply decodeFrom_ascii
  intro c member
  rcases plain_of_mem_program valid c member with rfl | ⟨-, high⟩
  · decide
  · omega

theorem waitingFor_numbered (number : Nat) (ts : List Stmt) :
    Session.waitingFor (Stmt.numbered number ts) ts = ts.mapIdx fun i t =>
      (((number + Stmt.heights (ts.take i) : Nat) : Int), t.render, t) := by
  induction ts generalizing number with
  | nil => rfl
  | cons t ts ih =>
      rw [List.mapIdx_cons]
      refine congrArg (_ :: ·) ((ih (number + t.height)).trans ?_)
      congr 1
      funext i u
      rw [List.take_succ_cons, Stmt.heights, Nat.add_assoc]

theorem numbered_read (h : ∀ t ∈ ts, parse t.render limit = .ok t) (number : Nat) :
    ReadAs limit (Stmt.numbered number ts) ts := by
  induction ts generalizing number with
  | nil => rfl
  | cons t ts ih =>
      obtain ⟨first, others⟩ := List.forall_mem_cons.mp h
      rw [ReadAs, Stmt.numbered, List.map_cons, List.map_cons, first]
      exact congrArg (.ok t :: ·) (ih others _)

/-! ## Loading -/

/-- A program that was written to a file is loaded as itself: its statements wait in order, with
their canonical texts, each under the number of its first line. -/
theorem start_program {path : Text} {files : Files} (valid : ∀ t ∈ ts, t.wellFormed = true)
    (depth : ∀ t ∈ ts, t.depth ≤ limit) (other : path ≠ inputPath)
    (null : path.contains '\x00' = false)
    (found : files.find? path = some ((Stmt.program ts).map Char.toUInt8))
    (reporter : Reporter) (interactive : Bool) :
    (∀ t ∈ ts, parse t.render limit = .ok t) ∧
      ∃ s, Session.start reporter path interactive files limit = .ok s ∧
        s.pending.entries = ts.mapIdx (fun i t =>
          (((1 + Stmt.heights (ts.take i) : Nat) : Int), t.render, t)) ∧
        s.results = [] ∧ s.scope = .root := by
  have read : ∀ t ∈ ts, parse t.render limit = .ok t := by
    intro t member
    exact parseWithin_eq_ok_iff.mpr (stmt_render_iff.mpr ⟨valid t member, depth t member⟩)
  have statements := ofText_program valid
  have distinct := ofText_numbers_nodup (Stmt.program ts)
  rw [statements] at distinct
  have all := numbered_read read 1
  obtain ⟨waiting, queued⟩ := all.exists_queue distinct
  let fresh := Session.fresh reporter path interactive limit
  let session : Session := { fresh with pending := waiting }
  have loaded : Session.addAll (Stmt.numbered 1 ts) fresh = .done session () :=
    Session.addAll_whole (Session.clearLine_fresh reporter path interactive limit) all queued
  have started : Session.start reporter path interactive files limit = .ok session := by
    simp only [Session.start, other, if_false, null, found, decode_program valid, statements,
      Bool.false_eq_true]
    rw [loaded]
    rfl
  exact ⟨read, session, started, queued.trans (waitingFor_numbered 1 ts), rfl, rfl⟩

/-- A function with an operation between two blocks in its body, and a number behind it. -/
theorem start_program_nested :
    let body : Stmt := .expr (.block [.binding ['a'] (.operation (.block [.expr (.number 1)])
      (.block [.expr (.usage ['x'])]) .add)])
    let ts : List Stmt := [.function ['f'] [['x']] body, .expr (.number 2)]
    let files : Files := Table.empty.insert ['p'] ((Stmt.program ts).map Char.toUInt8)
    let text := "fn f x => \x7b\n    let a = \x7b\n        1\n" ++
      "    \x7d + \x7b\n        x\n    \x7d\n\x7d"
    ∃ s, Session.start (.fresh true .plain) ['p'] false files = .ok s ∧
      s.pending.entries =
        [(1, text.toList, .function ['f'] [['x']] body), (8, ['2'], .expr (.number 2))] := by
  intro body ts files text
  have valid : ∀ t ∈ ts, t.wellFormed = true := by decide +kernel
  have depth : ∀ t ∈ ts, t.depth ≤ nestingLimit := by decide +kernel
  have found : files.find? ['p'] = some ((Stmt.program ts).map Char.toUInt8) := rfl
  obtain ⟨-, s, started, entries, -⟩ :=
    start_program valid depth (by decide) (by decide) found (.fresh true .plain) false
  refine ⟨s, started, entries.trans ?_⟩
  decide +kernel

end
end BlockCalc
