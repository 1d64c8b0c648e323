import BlockCalc.Proofs.Grammar.Failures
import BlockCalc.Proofs.Grammar.Normal
import BlockCalc.Tree.Equality
/-! The texts that are read are those of the grammar. A reading is a derivation; a derivation has a
normal form, and this one is read. So the order of the alternatives and the greed of repetitions
decide only which tree a text gets, never whether it gets one. -/
namespace BlockCalc.Grammar

/-- In a text without long runs of digits every number is short enough to be read. -/
theorem Derives.short {ph : Phrase} {s rest : Text} (h : Derives .free ph s rest)
    (runs : ShortRuns s) : Derives .short ph s rest := by
  induction h with
  | @number w s rest hn small =>
      have run : w <:+: s := ⟨[], rest, hn.text.symm⟩
      exact .number hn small (runs w run hn.valid)
  | usage hn => exact .usage hn
  | block hb hs ih =>
      have suffix := hb.suffix.trans (List.suffix_cons '{' _)
      exact .block hb (ih (runs.of_infix suffix.isInfix))
  | operand he ih => exact .operand (ih runs)
  | operation ha hb hc hd ia ib =>
      have suffix := (hb.suffix_of_sign hc).trans ha.suffix
      exact .operation (ia runs) hb hc (ib (runs.of_infix suffix.isInfix))
  | binding hh hv ih => exact .binding hh (ih (runs.of_infix hh.suffix.isInfix))
  | function hh hb ih => exact .function hh (ih (runs.of_infix hh.suffix.isInfix))
  | bare hp he ih => exact .bare trivial (ih runs)
  | nil => exact .nil
  | cons ht hb hs it is =>
      have suffix := hb.suffix.trans ht.suffix
      exact .cons (it runs) hb (is (runs.of_infix suffix.isInfix))

theorem derives_of_parseWithin {limit : Nat} {s : Text} {t : Stmt}
    (h : parseWithin limit s = .ok t) : Derives .free (.stmt t) s [] := by
  have derived := ((stmt_reads limit).derives (parseWithin_eq_ok_iff.mp h)).1
  exact derived.mono (fun _ _ => trivial) (fun _ _ => trivial)

theorem parseWithin_of_derives {limit : Nat} {s : Text} {t : Stmt} (runs : ShortRuns s)
    (level : stmt limit s ≠ .error .tooDeep) (h : Derives .free (.stmt t) s []) :
    ∃ t', parseWithin limit s = .ok t' := by
  obtain ⟨t', canonical⟩ := (h.short runs).normal
  have found : stmt limit s = reach limit t'.depth ([], t') := canonical.read limit rfl
  rcases Nat.lt_or_ge limit t'.depth with deep | enough
  · rw [reach_of_lt deep] at found
    exact False.elim (level found)
  · rw [reach_of_le enough] at found
    exact ⟨t', parseWithin_eq_ok_iff.mpr found⟩

/-- Exactly the texts of the grammar are read, each as the tree of one of its derivations, unless
the levels run out; and they suffice for every text that has fewer openings. -/
theorem parseWithin_accepts_grammar (limit : Nat) {s : Text} (runs : ShortRuns s) :
    (stmt limit s ≠ .error .tooDeep →
      ((∃ t, parseWithin limit s = .ok t) ↔ ∃ t, Derives .free (.stmt t) s [])) ∧
    (∀ t, parseWithin limit s = .ok t → Derives .free (.stmt t) s []) ∧
    (openings s < limit → stmt limit s ≠ .error .tooDeep) := by
  refine ⟨fun level => ⟨?_, ?_⟩, fun t h => derives_of_parseWithin h, stmt_ne_tooDeep⟩
  · rintro ⟨t, h⟩
    exact ⟨t, derives_of_parseWithin h⟩
  · rintro ⟨t, h⟩
    exact parseWithin_of_derives runs level h

/-- A block that is a function `fn`, or else the word `fn` and a function `f`, and a text whose
second operator no derivation takes in. -/
theorem parseWithin_accepts_words :
    (∃ t, Derives .free (.stmt t) "\x7b fn fn f => x \x7d".toList []) ∧
      ¬ ∃ t, Derives .free (.stmt t) "1 + 2 + 3".toList [] := by
  have first := parseWithin_accepts_grammar nestingLimit
    (shortRuns_of_length_le (by decide) : ShortRuns "\x7b fn fn f => x \x7d".toList)
  have second := parseWithin_accepts_grammar nestingLimit
    (shortRuns_of_length_le (by decide) : ShortRuns "1 + 2 + 3".toList)
  refine ⟨(first.1 (first.2.2 (by decide))).mp ?_, fun derived => ?_⟩
  · have reading : parse "\x7b fn fn f => x \x7d".toList = .ok (.expr (.block
        [.function ['f', 'n'] [['f']] (.expr (.usage ['x']))])) := by decide +kernel
    exact ⟨_, reading⟩
  · obtain ⟨t, h⟩ := (second.1 (second.2.2 (by decide))).mpr derived
    have refused : parse "1 + 2 + 3".toList = .error (.mismatch .leftover) := by decide +kernel
    cases refused.symm.trans h

end BlockCalc.Grammar
