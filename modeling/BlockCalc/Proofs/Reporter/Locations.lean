import BlockCalc.Reporter
/-! Where messages point to. A reporter is called in any order: files and lines are registered and
lines cleared, messages reported, and steps guarded that pass or stop for any reason. Of each file it
shows the line that was registered last, unless a call since then forgot it, and the files come in
the order in which they were first named. -/
namespace BlockCalc

/-- The message that is reported about a stop; an exit has none. -/
def Stop.reported? : Stop → Option Message
  | .message said => some said
  | .interrupted => some (.fixed .general "keyboard interrupt")
  | .stackExhausted =>
    some (.fixed .general "maximum recursion depth exceeded while evaluating")
  | .defect cause => some (Reporter.defectMessage cause)
  | .exit _ => none

/-- A call on a reporter. A guarded step is called with how it ended. -/
inductive ReporterCall where
  | registerFile (path : Text)
  | registerLine (path : Text) (line : Option Text) (number : Option Int)
  | clearLine (path : Text)
  | location
  | report (message : Message)
  | guarded (ending : Except Stop Unit)

namespace ReporterCall

def mark? : ReporterCall → Option (Text × Mark)
  | .registerFile path => some (path, .clear)
  | .registerLine path line number => some (path, ⟨line, number⟩)
  | .clearLine path => some (path, .clear)
  | .location | .report _ | .guarded _ => none

def path? (call : ReporterCall) : Option Text := call.mark?.map Prod.fst

def reported? : ReporterCall → Option Message
  | .report message => some message
  | .guarded (.error stop) => stop.reported?
  | .registerFile _ | .registerLine .. | .clearLine _ | .location | .guarded (.ok ()) => none

/-- A call behind which no earlier line of a file is shown: it names the file itself, or it reports
a message and the reporter survives. -/
def Forgets (fatal : Bool) (path : Text) (call : ReporterCall) : Prop :=
  call.path? = some path ∨ fatal = false ∧ call.reported? ≠ none

end ReporterCall

/-- A line of a file as a message points to it. -/
structure Place where
  path : Text
  line : Text
  number : Option Int
  deriving DecidableEq

def Place.text (place : Place) : Text :=
  Reporter.entry place.path ⟨some place.line, place.number⟩

namespace Place

/-- The place was registered, and no call since then forgot it. -/
def Current (fatal : Bool) (calls : List ReporterCall) (place : Place) : Prop :=
  ∃ earlier later, calls =
      earlier ++ .registerLine place.path (some place.line) place.number :: later ∧
    ∀ call ∈ later, ¬ call.Forgets fatal place.path

end Place

namespace Reporter
variable {r : Reporter} {call : ReporterCall} {calls : List ReporterCall} {fatal : Bool}

def perform (r : Reporter) : ReporterCall → Run Reporter Unit
  | .registerFile path => .done (r.registerFile path) ()
  | .registerLine path line number => .done (r.registerLine path line number) ()
  | .clearLine path => .done (r.clearLine path) ()
  | .location => .done r ()
  | .report message => r.report message
  | .guarded (.ok ()) => .done r ()
  | .guarded (.error stop) => r.settle stop

def performAll (r : Reporter) (calls : List ReporterCall) : Reporter :=
  calls.foldl (fun r call => (r.perform call).state) r

/-! ## What a call does -/

theorem perform_of_mark {path : Text} {mark : Mark} (marks : call.mark? = some (path, mark)) :
    r.perform call = .done (r.setMark path mark) () ∧ call.reported? = none := by
  cases call <;> cases marks <;> exact ⟨rfl, rfl⟩

/-- A call that reports a message does nothing else, but a defect stops the run behind it. -/
theorem perform_reported {message : Message} (reported : call.reported? = some message) :
    r.perform call = r.report message ∨
      ∃ defect, r.perform call =
        (r.report message).andThen fun r _ => .stopped r (.defect defect) := by
  cases call with
  | report told =>
      cases reported
      exact .inl rfl
  | guarded ending =>
      cases ending with
      | ok => cases reported
      | error stop =>
          cases stop with
          | exit status => cases reported
          | defect defect =>
              cases reported
              exact .inr ⟨defect, rfl⟩
          | _ =>
              cases reported
              exact .inl rfl
  | _ => cases reported

/-- A message ends a program whose reporter is fatal, in whatever call it is reported. -/
theorem perform_of_reported {message : Message} (ends : r.fatal = true)
    (reported : call.reported? = some message) :
    r.perform call = ⟨r, r.rendered message, .error (.exit 1)⟩ := by
  have told : r.report message = ⟨r, r.rendered message, .error (.exit 1)⟩ := by
    rw [report, if_pos ends]
  rcases perform_reported reported with only | ⟨defect, stops⟩
  · rw [only, told]
  · -- the exit comes before the defect is passed on
    rw [stops, told]
    rfl

theorem perform_surviving {message : Message} (survives : r.fatal = false)
    (reported : call.reported? = some message) : (r.perform call).state = r.clearLines := by
  rcases perform_reported reported with only | ⟨defect, stops⟩
  · rw [only, report_surviving survives]
  · rw [stops, report_surviving survives]
    rfl

theorem perform_quiet (unmarked : call.mark? = none) (unreported : call.reported? = none) :
    (r.perform call).state = r := by
  cases call with
  | location => rfl
  | guarded ending =>
      cases ending with
      | ok => rfl
      | error stop =>
          cases stop with
          | exit status => rfl
          | _ => cases unreported
  | report message => cases unreported
  | _ => cases unmarked

/-! ## The marks as a record of the calls -/

/-- The files in the order in which the calls name them. -/
def named (calls : List ReporterCall) : List Text := calls.filterMap ReporterCall.path?

/-- The first of two files was named before the second. -/
def NamedBefore (calls : List ReporterCall) (path path' : Text) : Prop :=
  (named calls).idxOf path < (named calls).idxOf path'

theorem named_snoc (calls : List ReporterCall) (call : ReporterCall) :
    named (calls ++ [call]) = named calls ++ call.path?.toList := by
  rw [named, List.filterMap_append]
  cases h : call.path? <;> simp only [List.filterMap, h] <;> rfl

theorem idxOf_named_snoc (calls : List ReporterCall) (call : ReporterCall) (path : Text) :
    (path ∈ named calls → (named (calls ++ [call])).idxOf path = (named calls).idxOf path) ∧
      (path ∉ named calls →
        (named calls).length ≤ (named (calls ++ [call])).idxOf path) := by
  rw [named_snoc, List.idxOf_append]
  refine ⟨fun old => if_pos old, fun new => ?_⟩
  rw [if_neg new]
  exact Nat.le_add_left _ _

/-- The order of two files is settled by the first call that names either. -/
theorem NamedBefore.append {path path' : Text} (h : NamedBefore calls path path')
    (call : ReporterCall) : NamedBefore (calls ++ [call]) path path' := by
  have old : path ∈ named calls :=
    List.idxOf_lt_length_iff.mp (Nat.lt_of_lt_of_le h List.idxOf_le_length)
  obtain ⟨same', further'⟩ := idxOf_named_snoc calls call path'
  rw [NamedBefore, (idxOf_named_snoc calls call path).1 old]
  by_cases old' : path' ∈ named calls
  · rw [same' old']
    exact h
  · exact Nat.lt_of_lt_of_le (List.idxOf_lt_length_iff.mpr old) (further' old')

theorem namedBefore_new {path path' : Text} (old : path ∈ named calls) (new : path' ∉ named calls)
    (call : ReporterCall) : NamedBefore (calls ++ [call]) path path' := by
  rw [NamedBefore, (idxOf_named_snoc calls call path).1 old]
  exact Nat.lt_of_lt_of_le (List.idxOf_lt_length_iff.mpr old)
    ((idxOf_named_snoc calls call path').2 new)

theorem current_snoc {place : Place} :
    place.Current fatal (calls ++ [call]) ↔
      call.mark? = some (place.path, ⟨some place.line, place.number⟩) ∨
        place.Current fatal calls ∧ ¬ call.Forgets fatal place.path := by
  constructor
  · rintro ⟨earlier, later, split, kept⟩
    rcases later.eq_nil_or_concat with rfl | ⟨later, last, rfl⟩
    · obtain ⟨-, same⟩ := List.append_inj' split rfl
      cases same
      exact .inl rfl
    · rw [List.concat_eq_append] at split kept
      rw [← List.cons_append, ← List.append_assoc] at split
      obtain ⟨rfl, same⟩ := List.append_inj' split rfl
      cases same
      obtain ⟨before, now⟩ := List.forall_mem_append.mp kept
      exact .inr ⟨⟨earlier, later, rfl, before⟩, now call List.mem_cons_self⟩
  · rintro (marks | ⟨⟨earlier, later, rfl, kept⟩, now⟩)
    · cases call <;> cases marks
      exact ⟨calls, [], rfl, nofun⟩
    · refine ⟨earlier, later ++ [call], ?_, ?_⟩
      · rw [List.append_assoc, List.cons_append]
      · exact List.forall_mem_append.mpr ⟨kept, List.forall_mem_singleton.mpr now⟩

/-- A reporter after some calls: the files that it knows are those that were named, in their order,
and a file is marked with a line as long as that is current. -/
structure Records (r : Reporter) (fatal : Bool) (calls : List ReporterCall) : Prop where
  ends : r.fatal = fatal
  known : ∀ path, path ∈ r.marks.keys ↔ path ∈ named calls
  ordered : r.marks.keys.Pairwise (NamedBefore calls)
  current : ∀ place : Place,
    r.marks.find? place.path = some ⟨some place.line, place.number⟩ ↔ place.Current fatal calls

theorem fresh_records (fatal : Bool) (coloring : Coloring) :
    (fresh fatal coloring).Records fatal [] where
  ends := rfl
  known _ := Iff.rfl
  ordered := .nil
  current place := by
    refine ⟨nofun, ?_⟩
    rintro ⟨earlier, later, split, -⟩
    cases (List.append_eq_nil_iff.mp split.symm).2

theorem Records.setMark {path : Text} {mark : Mark} (h : r.Records fatal calls)
    (marks : call.mark? = some (path, mark)) (unreported : call.reported? = none) :
    (r.setMark path mark).Records fatal (calls ++ [call]) := by
  have names : call.path? = some path := congrArg (Option.map Prod.fst) marks
  have forgets (path' : Text) : call.Forgets fatal path' ↔ path = path' := by
    rw [ReporterCall.Forgets, names, unreported]
    simp only [Option.some.injEq, ne_eq, not_true_eq_false, and_false, or_false]
  have keys := r.marks.keys_insert path mark
  constructor
  case ends => exact h.ends
  case known =>
    intro path'
    rw [named_snoc, names, Reporter.setMark, keys]
    split
    · next old =>
        rw [h.known, List.mem_append]
        refine (or_iff_left_of_imp fun new => ?_).symm
        obtain rfl := List.mem_singleton.mp new
        exact (h.known path').mp old
    · rw [List.mem_append, List.mem_append, h.known]
      rfl
  case ordered =>
    have older := h.ordered.imp fun before => NamedBefore.append before call
    rw [Reporter.setMark, keys]
    split
    · exact older
    · next new =>
        refine List.pairwise_append.mpr ⟨older, List.pairwise_singleton _ _, ?_⟩
        intro path' old path'' here
        obtain rfl := List.mem_singleton.mp here
        exact namedBefore_new ((h.known path').mp old) (mt (h.known path'').mpr new) call
  case current =>
    intro place
    rw [current_snoc, forgets, marks, Reporter.setMark, Table.find?_insert]
    by_cases here : path = place.path
    · simp only [here, if_true, Option.some.injEq, Prod.mk.injEq, true_and, not_true_eq_false,
        and_false, or_false]
    · simp only [here, if_false, Option.some.injEq, Prod.mk.injEq, false_and, not_false_iff,
        and_true, false_or, h.current]

/-- A call that names no file leaves the files as they are. -/
theorem Records.unnamed {r' : Reporter} (h : r.Records fatal calls) (unmarked : call.mark? = none)
    (ends : r'.fatal = r.fatal) (keys : r'.marks.keys = r.marks.keys)
    (current : ∀ place : Place,
      r'.marks.find? place.path = some ⟨some place.line, place.number⟩ ↔
        place.Current fatal calls ∧ ¬ call.Forgets fatal place.path) :
    r'.Records fatal (calls ++ [call]) where
  ends := ends.trans h.ends
  known path := by
    rw [named_snoc, ReporterCall.path?, unmarked, keys, h.known]
    exact iff_of_eq (congrArg (path ∈ ·) (List.append_nil _).symm)
  ordered := by
    rw [keys]
    exact h.ordered.imp fun before => before.append call
  current place := by
    rw [current, current_snoc, unmarked]
    simp only [reduceCtorEq, false_or]

theorem Records.report {message : Message} (h : r.Records fatal calls)
    (unmarked : call.mark? = none) (reported : call.reported? = some message) :
    (r.perform call).state.Records fatal (calls ++ [call]) := by
  have unnamed : call.path? = none := congrArg (Option.map Prod.fst) unmarked
  have some : call.reported? ≠ none := Option.ne_none_iff_exists'.mpr ⟨message, reported⟩
  have forgets (path : Text) : call.Forgets fatal path ↔ fatal = false := by
    rw [ReporterCall.Forgets, unnamed]
    simp only [reduceCtorEq, false_or, some, ne_eq, not_false_iff, and_true]
  cases ends : r.fatal with
  | true =>
      rw [perform_of_reported ends reported]
      refine h.unnamed unmarked rfl rfl fun place => ?_
      rw [h.current, forgets, ← h.ends, ends]
      simp only [reduceCtorEq, not_false_iff, and_true]
  | false =>
      rw [perform_surviving ends reported]
      refine h.unnamed unmarked rfl (Table.keys_mapValues _ _) fun place => ?_
      rw [forgets, ← h.ends, clearLines, Table.find?_mapValues]
      simp only [ends, not_true_eq_false, and_false, iff_false]
      cases r.marks.find? place.path <;> nofun

theorem Records.perform (h : r.Records fatal calls) (call : ReporterCall) :
    (r.perform call).state.Records fatal (calls ++ [call]) := by
  cases marks : call.mark? with
  | some mark =>
      obtain ⟨done, unreported⟩ := perform_of_mark marks
      rw [done]
      exact h.setMark marks unreported
  | none =>
      cases reported : call.reported? with
      | some message => exact h.report marks reported
      | none =>
          rw [perform_quiet marks reported]
          refine h.unnamed marks rfl rfl fun place => ?_
          rw [h.current, ReporterCall.Forgets, ReporterCall.path?, marks, reported]
          simp only [Option.map_none, reduceCtorEq, ne_eq, not_true_eq_false, and_false, or_self,
            not_false_iff, and_true]

theorem Records.performAll (h : r.Records fatal calls) (later : List ReporterCall) :
    (r.performAll later).Records fatal (calls ++ later) := by
  induction later generalizing r calls with
  | nil =>
      rw [List.append_nil]
      exact h
  | cons call later ih =>
      have last := ih (h.perform call)
      rw [List.append_assoc, List.singleton_append] at last
      exact last

/-! ## The location -/

def placeOf? (entry : Text × Mark) : Option Place :=
  match entry.2.line with
  | none | some [] => none
  | some line => some ⟨entry.1, line, entry.2.number⟩

def places (r : Reporter) : List Place := r.marks.entries.filterMap placeOf?

theorem placeOf_eq_some_iff {e : Text × Mark} {place : Place} :
    placeOf? e = some place ↔
      place.line ≠ [] ∧ e = (place.path, ⟨some place.line, place.number⟩) := by
  obtain ⟨path, _ | (_ | ⟨c, line⟩), number⟩ := e
  · exact ⟨nofun, nofun⟩
  · refine ⟨nofun, ?_⟩
    rintro ⟨text, same⟩
    cases place
    cases same
    exact False.elim (text rfl)
  · constructor
    · rintro ⟨⟩
      exact ⟨List.cons_ne_nil c line, rfl⟩
    · rintro ⟨-, same⟩
      cases place
      cases same
      rfl

theorem location_eq_places (r : Reporter) : r.location = r.places.flatMap Place.text := by
  rw [location, places]
  induction r.marks.entries with
  | nil => rfl
  | cons e entries ih =>
      rw [List.flatMap_cons, ih]
      obtain ⟨path, _ | (_ | ⟨c, line⟩), number⟩ := e <;> rfl

theorem Records.mem_places (h : r.Records fatal calls) {place : Place} :
    place ∈ r.places ↔ place.line ≠ [] ∧ place.Current fatal calls := by
  rw [places, List.mem_filterMap, ← h.current, Table.find?_eq_some_iff_mem]
  simp only [placeOf_eq_some_iff]
  constructor
  · rintro ⟨e, member, text, rfl⟩
    exact ⟨text, member⟩
  · rintro ⟨text, member⟩
    exact ⟨_, member, text, rfl⟩

theorem Records.places_ordered (h : r.Records fatal calls) :
    r.places.Pairwise fun place later => NamedBefore calls place.path later.path := by
  refine List.pairwise_filterMap.mpr ((List.pairwise_map.mp h.ordered).imp ?_)
  intro e e' before place shown place' shown'
  obtain ⟨-, rfl⟩ := placeOf_eq_some_iff.mp shown
  obtain ⟨-, rfl⟩ := placeOf_eq_some_iff.mp shown'
  exact before

/-- A reporter shows of every file the line that was registered last and not forgotten since, in the
order in which the files were first named; a message that ends the program leaves these lines. -/
theorem location_current (fatal : Bool) (coloring : Coloring) (calls : List ReporterCall) :
    (∃ places : List Place,
      ((fresh fatal coloring).performAll calls).location = places.flatMap Place.text ∧
      (∀ place, place ∈ places ↔ place.line ≠ [] ∧ place.Current fatal calls) ∧
      places.Pairwise fun place later => NamedBefore calls place.path later.path) ∧
    (fatal = true → ∀ call message, call.reported? = some message →
      ((fresh fatal coloring).performAll calls).perform call =
        ⟨(fresh fatal coloring).performAll calls,
          ((fresh fatal coloring).performAll calls).rendered message, .error (.exit 1)⟩) := by
  have h := (fresh_records fatal coloring).performAll calls
  rw [List.nil_append] at h
  refine ⟨⟨_, location_eq_places _, fun place => h.mem_places, h.places_ordered⟩, ?_⟩
  intro ends call message reported
  exact perform_of_reported (h.ends.trans ends) reported

/-- A line stays behind a message that ends the program, and is shown again with the next one; where
the program survives its messages no line is left to be shown. -/
theorem location_current_interrupted :
    let calls := [.registerLine ['a'] (some ['x']) (some 1), .registerFile ['b'],
      .report (.fixed .general "m")]
    ((fresh true .plain).performAll calls).perform (.guarded (.error .interrupted)) =
        ⟨(fresh true .plain).performAll calls,
          "  File 'a', line 1:\n    x\nerror: keyboard interrupt\n".toList, .error (.exit 1)⟩ ∧
      Place.Current true calls ⟨['a'], ['x'], some 1⟩ ∧
      ¬ Place.Current false calls ⟨['a'], ['x'], some 1⟩ := by
  intro calls
  obtain ⟨-, fatal⟩ := location_current true .plain calls
  obtain ⟨⟨places, shown, member, -⟩, -⟩ := location_current false .plain calls
  refine ⟨fatal rfl (.guarded (.error .interrupted)) _ rfl, ?_, ?_⟩
  · refine ⟨[], [.registerFile ['b'], .report (.fixed .general "m")], rfl, ?_⟩
    refine List.forall_mem_cons.mpr ⟨?_, List.forall_mem_singleton.mpr ?_⟩
    · rintro (same | ⟨same, -⟩) <;> cases same
    · rintro (same | ⟨same, -⟩) <;> cases same
  · intro current
    have listed := (member _).mpr ⟨List.cons_ne_nil _ _, current⟩
    have empty : ((fresh false .plain).performAll calls).location = [] := rfl
    rw [shown] at empty
    cases List.flatMap_eq_nil_iff.mp empty _ listed

end Reporter
end BlockCalc
