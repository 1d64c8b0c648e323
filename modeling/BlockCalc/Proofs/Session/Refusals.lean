import BlockCalc.Proofs.Grammar.Canonical
import BlockCalc.Proofs.Grammar.Failures
import BlockCalc.Proofs.Session.Steps
/-! How statements are refused. A text that is no statement is refused with a message, and a reporter
that survives messages takes it as settled. One failure of reading has no message: a numeral of too
many digits stops the reading with a defect, and a defect is handed on after it was reported. -/
namespace BlockCalc
open Grammar

/-! ## Texts that are one long numeral -/

section
variable {w : Text}

theorem number_long (valid : ∀ c ∈ w, c.isDigit = true) (long : literalLimit < w.length) :
    number w = .error (.literalTooLong w.length) := by
  have nonempty : w ≠ [] := by
    rintro rfl
    cases long
  have found : digits w = .ok ([], w) :=
    digits_eq_ok_iff.mpr ⟨(List.append_nil w).symm, nonempty, valid, rfl⟩
  rw [number, found]
  exact if_pos long

/-- A text of more digits than are read has no tree, and is not refused with a message either. -/
theorem parseWithin_long {limit : Nat} (level : 0 < limit) (valid : ∀ c ∈ w, c.isDigit = true)
    (long : literalLimit < w.length) :
    parseWithin limit w = .error (.literalTooLong w.length) := by
  have letter : ahead Char.isAlpha w = false := by
    cases w with
    | nil => rfl
    | cons c w =>
        have digit := valid c List.mem_cons_self
        refine Bool.eq_false_iff.mpr fun alpha => ?_
        rw [not_isDigit_of_isAlpha alpha] at digit
        cases digit
  have refused : stmt limit w = .error (.literalTooLong w.length) := by
    obtain ⟨limit, rfl⟩ := Nat.exists_eq_add_of_lt level
    exact stmtAbove_of_failure letter (orElse_of_failure (number_long valid long) fun e => nofun)
  rw [parseWithin, refused]

theorem parse_ones {limit n : Nat} (level : 0 < limit) (long : literalLimit < n) :
    parse (List.replicate n '1') limit = .error (.literalTooLong n) := by
  have valid : ∀ c ∈ List.replicate n '1', c.isDigit = true := by
    intro c hc
    rw [List.eq_of_mem_replicate hc]
    rfl
  have found : parse (List.replicate n '1') limit = _ :=
    parseWithin_long level valid (List.length_replicate.symm ▸ long)
  rw [List.length_replicate] at found
  exact found

end

/-! ## What a reporter does about it -/

section
variable {reporter : Reporter}

/-- A reporter that survives messages hands on only defects and exits. -/
theorem settle_survives (survives : reporter.fatal = false) (stop : Stop) :
    (reporter.settle stop).ending =
      match stop with
      | .defect defect => .error (.defect defect)
      | .exit status => .error (.exit status)
      | _ => .ok () := by
  cases stop with
  | exit status => rfl
  | defect defect =>
      rw [Reporter.settle, Reporter.report_surviving survives]
      rfl
  | _ => rw [Reporter.settle, Reporter.report_surviving survives]

theorem settled_add_unread {session : Session} (survives : session.reporter.fatal = false)
    {source : Text} {failure : Failure} (h : parse source session.limit = .error failure)
    (number : Int) :
    (Session.settled (session.add source number)).ending =
      match failure with
      | .literalTooLong digits => .error (.defect (.literalTooLong digits))
      | _ => .ok none := by
  have marked : (session.mark source number).reporter.fatal = false := survives
  have told := settle_survives marked failure.stop
  rw [Session.add_of_error session h]
  simp only [Session.settled, Run.stopped, told]
  cases failure <;> rfl

theorem settled_add_read {session : Session} {source : Text} {t : Stmt}
    (h : parse source session.limit = .ok t) (number : Int) :
    (Session.settled (session.add source number)).ending = .ok (some ()) := by
  rw [Session.add_of_ok session h]
  rfl

end

/-- A text is read, or refused with a message, or it has a numeral of too many digits; and only the
defect of such a numeral is handed on by a session whose reporter survives messages. -/
theorem parse_refusals (limit : Nat) (s : Text) :
    (Yields (parse s limit) ∨
      ∃ digits, parse s limit = .error (.literalTooLong digits) ∧ LongNumeral digits s) ∧
    ∀ session : Session, session.reporter.fatal = false → ∀ (number : Int) (stop : Stop),
      (Session.settled (session.add s number)).ending = .error stop ↔
        ∃ digits, parse s session.limit = .error (.literalTooLong digits) ∧
          stop = .defect (.literalTooLong digits) := by
  constructor
  · cases h : parse s limit with
    | ok t => exact .inl (.ok t)
    | error failure =>
        rcases parseWithin_fails h with ⟨e, rfl⟩ | ⟨digits, rfl, numeral⟩
        · exact .inl (.mismatch e)
        · exact .inr ⟨digits, rfl, numeral⟩
  · intro session survives number stop
    cases h : parse s session.limit with
    | ok t => simp only [settled_add_read h, reduceCtorEq, false_and, exists_false]
    | error failure =>
        rw [settled_add_unread survives h]
        cases failure with
        | literalTooLong digits =>
            simp only [Except.error.injEq, Failure.literalTooLong.injEq, exists_eq_left']
            exact eq_comm
        | _ => simp only [reduceCtorEq, Except.error.injEq, false_and, exists_false]

/-- With one digit more than the longest numeral a text is neither read nor refused. -/
theorem parse_without_answer : ¬ Yields (parse (List.replicate 4301 '1')) := by
  intro yields
  obtain ⟨e, other⟩ := yields _ (parse_ones (by decide) (by decide))
  cases other

/-- A shell's session hands this numeral on, but not one that is merely too large. -/
theorem parse_refusals_typed :
    (Session.settled ((Session.fresh (.fresh true .plain) inputPath true).add
        (List.replicate 4301 '1') 1)).ending = .error (.defect (.literalTooLong 4301)) ∧
      ∀ stop, (Session.settled ((Session.fresh (.fresh true .plain) inputPath true).add
        "9999999999".toList 1)).ending ≠ .error stop := by
  have survives : (Session.fresh (.fresh true .plain) inputPath true).reporter.fatal = false := rfl
  constructor
  · have digits := parse_ones (by decide : 0 < nestingLimit) (by decide : literalLimit < 4301)
    exact ((parse_refusals nestingLimit _).2 _ survives 1 _).mpr ⟨4301, digits, rfl⟩
  · intro stop handed
    obtain ⟨digits, found, -⟩ := ((parse_refusals nestingLimit _).2 _ survives 1 stop).mp handed
    have refused : parse "9999999999".toList = .error (.mismatch (.expected ['\x7b'])) := by
      decide +kernel
    cases refused.symm.trans found

end BlockCalc
