import BlockCalc.Proofs.Grammar.Agreement
import BlockCalc.Proofs.Grammar.Soundness
import BlockCalc.Tree.Equality
/-! What of the blank characters counts. Between two words any of them will do, but behind the word
of a definition only spaces. So two texts that differ in their gaps, though not in whether a gap is
of spaces alone, are read alike, whether or not they are statements. -/
namespace BlockCalc.Grammar

/-- Gaps that are told apart by no rule: both of spaces alone, or both with another blank. -/
structure SameGap (v w : Text) : Prop where
  left : v ≠ [] ∧ ∀ c ∈ v, isBlank c = true
  right : w ≠ [] ∧ ∀ c ∈ w, isBlank c = true
  spaces : (∀ c ∈ v, c = ' ') ↔ ∀ c ∈ w, c = ' '

/-- The same characters other than blanks, with such gaps in the same places. -/
inductive Alike : Text → Text → Prop
  | nil : Alike [] []
  | ink {c a b} : isBlank c = false → Alike a b → Alike (c :: a) (c :: b)
  | gap {v w a b} : SameGap v w → ahead isBlank a = false → ahead isBlank b = false →
      Alike a b → Alike (v ++ a) (w ++ b)

/-! ## Scanning alike texts -/

section
variable {p : Char → Bool} {a b v : Text}

theorem ahead_gap (hp : ∀ c, isBlank c = true → p c = false)
    (h : v ≠ [] ∧ ∀ c ∈ v, isBlank c = true) (a : Text) : ahead p (v ++ a) = false := by
  obtain ⟨c, v, rfl⟩ := List.exists_cons_of_ne_nil h.1
  exact hp c (h.2 c List.mem_cons_self)

theorem blank_gap (h : v ≠ [] ∧ ∀ c ∈ v, isBlank c = true) (a : Text) :
    ahead isBlank (v ++ a) = true := by
  obtain ⟨c, v, rfl⟩ := List.exists_cons_of_ne_nil h.1
  exact h.2 c List.mem_cons_self

theorem trimStart_gap (h : ∀ c ∈ v, isBlank c = true) (stop : ahead isBlank a = false) :
    Text.trimStart (v ++ a) = a := trimStart_eq_iff.mpr ⟨⟨v, h, rfl⟩, stop⟩

theorem Alike.trimStart (h : Alike a b) : Alike (Text.trimStart a) (Text.trimStart b) := by
  cases h with
  | nil => exact .nil
  | @ink c a b hc h =>
      have first : ∀ s, Text.trimStart (c :: s) = c :: s := fun s => trimStart_eq_self hc
      rw [first a, first b]
      exact .ink hc h
  | gap same ha hb h =>
      rw [trimStart_gap same.left.2 ha, trimStart_gap same.right.2 hb]
      exact h

/-- A class without blanks has the same run in front of alike texts. -/
theorem Alike.span (h : Alike a b) (hp : ∀ c, isBlank c = true → p c = false) :
    (span p a).2 = (span p b).2 ∧ Alike (span p a).1 (span p b).1 := by
  have stays : ∀ {s}, ahead p s = false → Grammar.span p s = (s, []) := by
    intro s stop
    exact span_eq_iff.mpr ⟨rfl, List.forall_mem_nil _, stop⟩
  induction h with
  | nil => exact ⟨rfl, .nil⟩
  | @ink c a b hc h ih =>
      cases member : p c with
      | true =>
          simp only [Grammar.span, List.takeWhile_cons, List.dropWhile_cons, member,
            if_true] at ih ⊢
          exact ⟨congrArg (c :: ·) ih.1, ih.2⟩
      | false =>
          have first : ∀ s, ahead p (c :: s) = false := fun _ => member
          rw [stays (first a), stays (first b)]
          exact ⟨rfl, .ink hc h⟩
  | @gap v w a b same ha hb h ih =>
      rw [stays (ahead_gap hp same.left a), stays (ahead_gap hp same.right b)]
      exact ⟨rfl, .gap same ha hb h⟩

theorem Alike.someOf {e : ParseError} (h : Alike a b) (hp : ∀ c, isBlank c = true → p c = false) :
    Agree Eq (Beside Alike) (someOf p (.mismatch e) a) (someOf p (.mismatch e) b) := by
  obtain ⟨same, left⟩ := h.span hp
  unfold Grammar.someOf
  generalize Grammar.span p a = x at same left
  generalize Grammar.span p b = y at same left
  obtain ⟨rest, run⟩ := x
  obtain ⟨rest', run'⟩ := y
  cases same
  cases run with
  | nil => exact .error rfl
  | cons c run => exact .ok ⟨left, rfl⟩

theorem after?_gap {c : Char} {literal : Text} (ink : isBlank c = false)
    (h : v ≠ [] ∧ ∀ c ∈ v, isBlank c = true) (a : Text) :
    Text.after? (c :: literal) (v ++ a) = none := by
  obtain ⟨d, v, rfl⟩ := List.exists_cons_of_ne_nil h.1
  have blank := h.2 d List.mem_cons_self
  have other : c ≠ d := by
    rintro rfl
    rw [ink] at blank
    cases blank
  simp only [List.cons_append, Text.after?, other, if_false]

theorem Alike.after? {literal : Text} (h : Alike a b)
    (ink : literal.all (fun c => !isBlank c) = true) :
    (∃ a' b', Text.after? literal a = some a' ∧ Text.after? literal b = some b' ∧ Alike a' b') ∨
      (Text.after? literal a = none ∧ Text.after? literal b = none) := by
  induction literal generalizing a b with
  | nil => exact .inl ⟨a, b, rfl, rfl, h⟩
  | cons d literal ih =>
      simp only [List.all_cons, Bool.and_eq_true, Bool.not_eq_true'] at ink
      obtain ⟨hd, tail⟩ := ink
      cases h with
      | nil => exact .inr ⟨rfl, rfl⟩
      | @ink c a b hc h =>
          by_cases same : d = c
          · simp only [Text.after?, same, if_true]
            exact ih h tail
          · simp only [Text.after?, same, if_false, and_self, or_true]
      | gap same ha hb h => exact .inr ⟨after?_gap hd same.left _, after?_gap hd same.right _⟩

theorem Alike.expect {literal : Text} (h : Alike a b)
    (ink : literal.all (fun c => !isBlank c) = true) :
    Agree Eq Alike (expect literal a) (expect literal b) := by
  unfold Grammar.expect
  rcases h.after? ink with ⟨a', b', ha, hb, left⟩ | ⟨ha, hb⟩
  · rw [ha, hb]
    exact .ok left
  · rw [ha, hb]
    exact .error rfl

theorem identifier_blank {s : Text} (h : ahead isBlank s = true) :
    identifier s = .error (.mismatch .expectedIdentifier) := by
  cases s with
  | nil => cases h
  | cons c s =>
      have alpha : c.isAlpha = false := not_alpha_of_blank h
      simp only [identifier, alpha, Bool.false_eq_true, if_false]

theorem Alike.identifier (h : Alike a b) :
    Agree Eq (Beside Alike) (identifier a) (identifier b) := by
  cases h with
  | nil => exact .error rfl
  | @ink c a b hc h =>
      have tail := h.span (fun _ => not_alphanum_of_blank)
      simp only [Grammar.identifier]
      split
      · exact .ok ⟨tail.2, congrArg (c :: ·) tail.1⟩
      · exact .error rfl
  | gap same ha hb h =>
      rw [identifier_blank (blank_gap same.left _), identifier_blank (blank_gap same.right _)]
      exact .error rfl

theorem Alike.names (h : Alike a b) :
    Agree Eq (Beside Alike) (many Grammar.identifier a) (many Grammar.identifier b) := by
  have consumes : ∀ {s rest item}, Grammar.identifier s = .ok (rest, item) →
      rest.length < s.length := fun found => (identifier_eq_ok_iff.mp found).length_lt
  exact .many Alike.trimStart consumes consumes (fun h => h.identifier.loose) h

/-! ## Spaces in front of a name -/

theorem spaces_mismatch {s : Text} (h : ahead (· == ' ') s = false) :
    spaces s = .error (.mismatch .expectedSpace) := by
  have none : Grammar.span (· == ' ') s = (s, []) :=
    span_eq_iff.mpr ⟨rfl, List.forall_mem_nil _, h⟩
  simp only [spaces, Grammar.someOf, none]

theorem spaces_gap (h : v ≠ []) (spaced : ∀ c ∈ v, c = ' ') (stop : ahead isBlank a = false) :
    spaces (v ++ a) = .ok (a, v) :=
  spaces_eq_ok_iff.mpr
    ⟨List.eq_replicate_iff.mpr ⟨rfl, spaced⟩, h, rfl, not_space_of_not_blank stop⟩

section
variable {α : Type} {f : Text × Text → Except Failure α} {S : α → α → Prop}

/-- What begins with a word does not come behind the spaces of a gap with another blank. -/
theorem mixed_gap (hv : v ≠ [] ∧ ∀ c ∈ v, isBlank c = true) (mixed : ¬ ∀ c ∈ v, c = ' ')
    (stop : ahead isBlank a = false)
    (word : ∀ s w, ahead isBlank s = true → ∃ e, f (s, w) = .error (.mismatch e)) :
    ∃ e, spaces (v ++ a) >>= f = .error (.mismatch e) := by
  rcases (spaces_yields (v ++ a)).cases with ⟨⟨rest, w⟩, found⟩ | ⟨e, found⟩
  · obtain ⟨run, nonempty, text, -⟩ := spaces_eq_ok_iff.mp found
    have spaced := (List.eq_replicate_iff.mp run).2
    have blank : ahead isBlank rest = true := by
      cases other : ahead isBlank rest with
      | true => rfl
      | false =>
          have blanks : ∀ c ∈ w, isBlank c = true := fun c hc => spaced c hc ▸ isBlank_space
          have ends := trimStart_gap blanks other
          rw [← text, trimStart_gap hv.2 stop] at ends
          rw [ends] at text
          exact False.elim (mixed (List.append_cancel_right text ▸ spaced))
    obtain ⟨e, mismatch⟩ := word rest w blank
    refine ⟨e, ?_⟩
    rw [found]
    exact mismatch
  · refine ⟨e, ?_⟩
    rw [found]
    rfl

/-- Behind the word of a definition the gaps must be of spaces alone, or neither text goes on. -/
theorem Alike.spaces_bind (h : Alike a b)
    (word : ∀ s w, ahead isBlank s = true → ∃ e, f (s, w) = .error (.mismatch e))
    (step : ∀ {a b v w}, Alike a b → Agree Loose S (f (a, v)) (f (b, w))) :
    Agree Loose S (spaces a >>= f) (spaces b >>= f) := by
  cases h with
  | nil => exact .error (.mismatch _ _)
  | @ink c a b hc h =>
      have none : ∀ s, spaces (c :: s) = .error (.mismatch .expectedSpace) :=
        fun s => spaces_mismatch (not_space_of_not_blank hc)
      rw [none a, none b]
      exact .error (.mismatch _ _)
  | @gap v w a b same ha hb h =>
      by_cases spaced : ∀ c ∈ v, c = ' '
      · rw [spaces_gap same.left.1 spaced ha, spaces_gap same.right.1 (same.spaces.mp spaced) hb]
        exact step h
      · obtain ⟨d, left⟩ := mixed_gap same.left spaced ha word
        obtain ⟨e, right⟩ := mixed_gap same.right (mt same.spaces.mpr spaced) hb word
        rw [left, right]
        exact .error (.mismatch d e)

end
end

/-! ## Rules on alike texts -/

section
variable {a b : Text}

theorem Alike.number (h : Alike a b) : Agree Eq (Beside Alike) (number a) (number b) := by
  refine Agree.bind (h.someOf fun _ => not_digit_of_blank) ?_
  rintro ⟨rest, w⟩ ⟨rest', w'⟩ ⟨left, same⟩
  obtain rfl : w = w' := same
  dsimp only
  split
  · exact .error rfl
  · split
    · exact .ok ⟨left, rfl⟩
    · exact .error rfl

theorem Alike.usage (h : Alike a b) : Agree Eq (Beside Alike) (usage a) (usage b) :=
  Agree.bind h.identifier fun same => .ok ⟨same.1, congrArg Expr.usage same.2⟩

theorem Alike.operator (h : Alike a b) : Agree Loose (Beside Alike) (operator a) (operator b) := by
  have sign : ∀ op : Op, Agree Loose (Beside Alike)
      ((Grammar.expect op.symbol a).map fun rest => (rest, op))
      ((Grammar.expect op.symbol b).map fun rest => (rest, op)) := by
    intro op
    have ink : op.symbol.all (fun c => !isBlank c) = true := by cases op <;> rfl
    exact (h.expect ink).loose.map fun left => ⟨left, rfl⟩
  simp only [Grammar.operator, Op.all, List.map_cons, List.map_nil, firstOf]
  refine Agree.orElse Loose.refl ?_ (Agree.orElse Loose.refl ?_ (Agree.orElse Loose.refl ?_ ?_))
  all_goals exact sign _

theorem Alike.bindingHead (h : Alike a b) :
    Agree Loose (Beside Alike) (bindingHead a) (bindingHead b) := by
  refine Agree.bind (h.expect rfl).loose ?_
  intro a b h
  refine h.spaces_bind ?_ ?_
  · intro s w blank
    exact ⟨_, congrArg (· >>= _) (identifier_blank blank)⟩
  · intro a b v w h
    refine Agree.bind h.identifier.loose ?_
    rintro ⟨s, name⟩ ⟨s', name'⟩ ⟨h, same⟩
    refine Agree.bind (h.trimStart.expect rfl).loose ?_
    intro a b h
    exact .ok ⟨h.trimStart, same⟩

theorem Alike.functionHead (h : Alike a b) :
    Agree Loose (Beside Alike) (functionHead a) (functionHead b) := by
  refine Agree.bind (h.expect rfl).loose ?_
  intro a b h
  refine h.spaces_bind ?_ ?_
  · intro s w blank
    exact ⟨_, congrArg (· >>= _) (identifier_blank blank)⟩
  · intro a b v w h
    refine Agree.bind h.identifier.loose ?_
    rintro ⟨s, name⟩ ⟨s', name'⟩ ⟨h, same⟩
    obtain rfl : name = name' := same
    refine Agree.bind h.trimStart.names.loose ?_
    rintro ⟨s, params⟩ ⟨s', params'⟩ ⟨h, same⟩
    obtain rfl : params = params' := same
    refine Agree.bind (h.expect rfl).loose ?_
    intro a b h
    exact .ok ⟨h.trimStart, rfl⟩

/-- A rule for statements that reads alike texts alike, and takes something off them. -/
structure ReadsAlike (rule : Rule Stmt) : Prop where
  agree : ∀ {a b}, Alike a b → Agree Eq (Beside Alike) (rule a) (rule b)
  consumes : ∀ {s rest t}, rule s = .ok (rest, t) → rest.length < s.length

variable {rule : Rule Stmt}

theorem ReadsAlike.block (r : ReadsAlike rule) (h : Alike a b) :
    Agree Eq (Beside Alike) (block rule a) (block rule b) := by
  refine Agree.bind (h.expect rfl) ?_
  intro a b h
  have inner : Agree Eq (Beside Alike) (many rule a.trimStart) (many rule b.trimStart) :=
    .many Alike.trimStart r.consumes r.consumes (fun h => (r.agree h).loose) h.trimStart
  refine Agree.bind inner ?_
  rintro ⟨s, ts⟩ ⟨s', ts'⟩ ⟨h, same⟩
  refine Agree.bind (h.trimStart.expect rfl) ?_
  intro a b h
  exact .ok ⟨h, congrArg Expr.block same⟩

theorem ReadsAlike.operand (r : ReadsAlike rule) (h : Alike a b) :
    Agree Eq (Beside Alike) (operand rule a) (operand rule b) :=
  .orElse Eq.refl h.number.loose (.orElse Eq.refl h.usage.loose (r.block h))

theorem ReadsAlike.operation (r : ReadsAlike rule) (h : Alike a b) :
    Agree Loose (Beside Alike) (operation rule a) (operation rule b) := by
  refine Agree.bind (r.operand h).loose ?_
  rintro ⟨s, lhs⟩ ⟨s', lhs'⟩ ⟨h, same⟩
  obtain rfl : lhs = lhs' := same
  refine Agree.bind h.trimStart.operator ?_
  rintro ⟨s, op⟩ ⟨s', op'⟩ ⟨h, same⟩
  obtain rfl : op = op' := same
  refine Agree.bind (r.operand h.trimStart).loose ?_
  rintro ⟨s, rhs⟩ ⟨s', rhs'⟩ ⟨h, same⟩
  exact .ok ⟨h, congrArg (Expr.operation lhs · op) same⟩

theorem ReadsAlike.expr (r : ReadsAlike rule) (h : Alike a b) :
    Agree Eq (Beside Alike) (expr rule a) (expr rule b) :=
  .orElse Eq.refl (r.operation h) (r.operand h)

theorem ReadsAlike.binding (r : ReadsAlike rule) (h : Alike a b) :
    Agree Loose (Beside Alike) (binding rule a) (binding rule b) := by
  rw [binding_eq, binding_eq]
  refine Agree.bind h.bindingHead ?_
  rintro ⟨s, name⟩ ⟨s', name'⟩ ⟨h, same⟩
  obtain rfl : name = name' := same
  refine Agree.bind (r.expr h).loose ?_
  rintro ⟨s, v⟩ ⟨s', v'⟩ ⟨h, same⟩
  exact .ok ⟨h, congrArg (Stmt.binding name) same⟩

theorem ReadsAlike.function (r : ReadsAlike rule) (h : Alike a b) :
    Agree Loose (Beside Alike) (function rule a) (function rule b) := by
  rw [function_eq, function_eq]
  refine Agree.bind h.functionHead ?_
  rintro ⟨s, name, params⟩ ⟨s', name', params'⟩ ⟨h, same⟩
  obtain ⟨rfl, rfl⟩ := Prod.mk.inj same
  refine Agree.bind (r.agree h).loose ?_
  rintro ⟨s, body⟩ ⟨s', body'⟩ ⟨h, same⟩
  exact .ok ⟨h, congrArg (Stmt.function name params) same⟩

theorem ReadsAlike.above (r : ReadsAlike rule) (h : Alike a b) :
    Agree Eq (Beside Alike) (stmtAbove rule a) (stmtAbove rule b) := by
  have bare : Agree Eq (Beside Alike) (exprStmt rule a) (exprStmt rule b) :=
    Agree.bind (r.expr h) fun same => .ok ⟨same.1, congrArg Stmt.expr same.2⟩
  exact .orElse Eq.refl (r.binding h) (.orElse Eq.refl (r.function h) bare)

theorem stmt_readsAlike (limit : Nat) : ReadsAlike (stmt limit) := by
  have consumes : ∀ limit {s rest t}, stmt limit s = .ok (rest, t) → rest.length < s.length :=
    fun limit _ _ _ found => ((stmt_reads limit).derives found).1.advances
  induction limit with
  | zero => exact ⟨fun _ => .error rfl, consumes 0⟩
  | succ limit ih => exact ⟨ih.above, consumes (limit + 1)⟩

/-- Texts with the same characters and gaps in the same places, each of spaces alone in both or in
neither, are both read as the same tree or both refused for the same reason. -/
theorem parseWithin_alike (limit : Nat) (h : Alike a b) :
    parseWithin limit a = parseWithin limit b := by
  have found := (stmt_readsAlike limit).agree h
  unfold parseWithin
  generalize stmt limit a = x at found
  generalize stmt limit b = y at found
  cases found with
  | error same => rw [same]
  | @ok x y same =>
      obtain ⟨rest, t⟩ := x
      obtain ⟨rest', t'⟩ := y
      obtain ⟨left, rfl⟩ : Alike rest rest' ∧ t = t' := same
      cases left with
      | nil => rfl
      | ink => rfl
      | @gap v w _ _ same _ _ _ =>
          obtain ⟨c, v, rfl⟩ := List.exists_cons_of_ne_nil same.left.1
          obtain ⟨d, w, rfl⟩ := List.exists_cons_of_ne_nil same.right.1
          rfl

/-- Spaces are kept to spaces behind the word, and any blanks do in front of the sign. -/
theorem parseWithin_alike_binding :
    parse "let  x\t=1".toList = .ok (.binding ['x'] (.number 1)) ∧
      parse "let x \n=1".toList = .ok (.binding ['x'] (.number 1)) := by
  have gap : ∀ {c v}, (c :: v).all isBlank = true → c :: v ≠ [] ∧ ∀ d ∈ c :: v, isBlank d = true :=
    fun blank => ⟨List.cons_ne_nil _ _, List.all_eq_true.mp blank⟩
  have spaces : SameGap [' ', ' '] [' '] := ⟨gap rfl, gap rfl, by simp⟩
  have others : SameGap ['\t'] [' ', '\n'] := ⟨gap rfl, gap rfl, by simp⟩
  have alike : Alike "let  x\t=1".toList "let x \n=1".toList :=
    .ink rfl (.ink rfl (.ink rfl (.gap spaces rfl rfl (.ink rfl (.gap others rfl rfl
      (.ink rfl (.ink rfl .nil)))))))
  have reading : parse "let  x\t=1".toList = .ok (.binding ['x'] (.number 1)) := by decide +kernel
  exact ⟨reading, (parseWithin_alike nestingLimit alike).symm.trans reading⟩

end
end BlockCalc.Grammar
