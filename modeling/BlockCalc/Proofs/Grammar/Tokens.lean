import BlockCalc.Proofs.Grammar.Answers
/-! Tokens: what may stand between a place in a text and a later one, given as a relation between
the two remainders, and the scanners that find it. Numerals and names are as long as possible. -/
namespace BlockCalc.Grammar

def ahead (p : Char → Bool) : Text → Bool
  | [] => false
  | c :: _ => p c

@[simp] theorem ahead_nil (p : Char → Bool) : ahead p [] = false := rfl

@[simp] theorem ahead_cons (p : Char → Bool) (c : Char) (s : Text) : ahead p (c :: s) = p c := rfl

/-! ## Classes of characters -/

theorem isDigit_range {c : Char} (h : c.isDigit = true) : 48 ≤ c.toNat ∧ c.toNat ≤ 57 := by
  obtain ⟨low, high⟩ := (Bool.and_eq_true _ _).mp h
  exact ⟨of_decide_eq_true low, of_decide_eq_true high⟩

theorem isAlpha_range {c : Char} (h : c.isAlpha = true) :
    (65 ≤ c.toNat ∧ c.toNat ≤ 90) ∨ (97 ≤ c.toNat ∧ c.toNat ≤ 122) := by
  rcases (Bool.or_eq_true _ _).mp h with upper | lower
  · exact .inl (of_decide_eq_true upper)
  · obtain ⟨low, high⟩ := (Bool.and_eq_true _ _).mp lower
    exact .inr ⟨of_decide_eq_true low, of_decide_eq_true high⟩

theorem isAlphanum_of_isAlpha {c : Char} (h : c.isAlpha = true) : c.isAlphanum = true :=
  (Bool.or_eq_true _ _).mpr (.inl h)

theorem isAlphanum_of_isDigit {c : Char} (h : c.isDigit = true) : c.isAlphanum = true :=
  (Bool.or_eq_true _ _).mpr (.inr h)

theorem isAlpha_or_isDigit {c : Char} (h : c.isAlphanum = true) :
    c.isAlpha = true ∨ c.isDigit = true :=
  (Bool.or_eq_true _ _).mp h

theorem not_isDigit_of_isAlpha {c : Char} (h : c.isAlpha = true) : c.isDigit = false := by
  cases hd : c.isDigit with
  | false => rfl
  | true =>
      have low := isAlpha_range h
      have high := isDigit_range hd
      omega

theorem isAlphanum_range {c : Char} (h : c.isAlphanum = true) :
    48 ≤ c.toNat ∧ c.toNat ≤ 122 := by
  rcases isAlpha_or_isDigit h with h | h
  · have range := isAlpha_range h
    omega
  · have range := isDigit_range h
    omega

theorem isBlank_eq_false_of_range {c : Char} (low : 33 ≤ c.toNat) (high : c.toNat ≤ 126) :
    isBlank c = false := by
  simp only [isBlank, Bool.or_eq_false_iff, Bool.and_eq_false_iff, decide_eq_false_iff_not,
    beq_eq_false_iff_ne, ne_eq]
  omega

theorem isBlank_eq_false_of_isAlphanum {c : Char} (h : c.isAlphanum = true) :
    isBlank c = false := by
  have range := isAlphanum_range h
  exact isBlank_eq_false_of_range (by omega) (by omega)

theorem not_alphanum_of_blank {c : Char} (h : isBlank c = true) : c.isAlphanum = false := by
  cases alphanum : c.isAlphanum with
  | false => rfl
  | true =>
      rw [isBlank_eq_false_of_isAlphanum alphanum] at h
      cases h

theorem not_alpha_of_blank {c : Char} (h : isBlank c = true) : c.isAlpha = false :=
  (Bool.or_eq_false_iff.mp (not_alphanum_of_blank h)).1

theorem not_digit_of_blank {c : Char} (h : isBlank c = true) : c.isDigit = false :=
  (Bool.or_eq_false_iff.mp (not_alphanum_of_blank h)).2

theorem isBlank_space : isBlank ' ' = true := by decide

/-! ## Runs of characters -/

section
variable {p : Char → Bool} {s w rest : Text}

/-- The longest run of a class is the one behind which the class does not go on. -/
theorem span_eq_iff :
    span p s = (rest, w) ↔ s = w ++ rest ∧ (∀ c ∈ w, p c = true) ∧ ahead p rest = false := by
  simp only [span, Prod.mk.injEq]
  constructor
  · rintro ⟨rfl, rfl⟩
    refine ⟨List.takeWhile_append_dropWhile.symm, fun c hc => ?_, ?_⟩
    · exact List.all_eq_true.mp List.all_takeWhile c hc
    · cases h : s.dropWhile p with
      | nil => rfl
      | cons c tail =>
          have first := List.head?_dropWhile_not p s
          rw [h] at first
          simpa only [ahead_cons, List.head?_cons] using first
  · rintro ⟨rfl, inside, outside⟩
    have stop : rest.dropWhile p = rest ∧ rest.takeWhile p = [] := by
      cases rest with
      | nil => exact ⟨rfl, rfl⟩
      | cons c tail =>
          simp only [ahead_cons] at outside
          simp only [List.dropWhile_cons, List.takeWhile_cons, outside, Bool.false_eq_true,
            if_false, and_self]
    rw [List.dropWhile_append_of_pos inside, List.takeWhile_append_of_pos inside, stop.1, stop.2,
      List.append_nil]
    exact ⟨rfl, rfl⟩

theorem someOf_eq_ok_iff {ε : Type} {missing : ε} :
    someOf p missing s = .ok (rest, w) ↔ span p s = (rest, w) ∧ w ≠ [] := by
  unfold someOf
  split
  · next r h =>
      simp only [h, reduceCtorEq, false_iff]
      rintro ⟨same, nonempty⟩
      exact nonempty (Prod.mk.inj same).2.symm
  · next found some =>
      rw [Except.ok.injEq]
      exact ⟨fun h => ⟨h, fun empty => some rest (empty ▸ h)⟩, And.left⟩

theorem someOf_yields {e : ParseError} : Yields (someOf p (.mismatch e) s) := by
  unfold someOf
  split
  · exact .mismatch e
  · exact .ok _

end

/-! ## Blank characters -/

def Blanks (s rest : Text) : Prop := ∃ w : Text, (∀ c ∈ w, isBlank c = true) ∧ s = w ++ rest

/-- One space or more, and no other blank character. -/
def Spaces (s rest : Text) : Prop := ∃ n : Nat, s = List.replicate (n + 1) ' ' ++ rest

theorem Blanks.refl (s : Text) : Blanks s s := ⟨[], List.forall_mem_nil _, rfl⟩

theorem Blanks.suffix {s rest : Text} (h : Blanks s rest) : rest <:+ s := by
  obtain ⟨w, -, rfl⟩ := h
  exact List.suffix_append w rest

theorem Spaces.blanks {s rest : Text} (h : Spaces s rest) : Blanks s rest := by
  obtain ⟨n, rfl⟩ := h
  refine ⟨_, fun c hc => ?_, rfl⟩
  rw [List.eq_of_mem_replicate hc]
  exact isBlank_space

theorem Spaces.length_lt {s rest : Text} (h : Spaces s rest) : rest.length < s.length := by
  obtain ⟨n, rfl⟩ := h
  simp only [List.length_append, List.length_replicate]
  omega

/-- Trimming goes as far as blank characters go. -/
theorem trimStart_eq_iff {s rest : Text} :
    Text.trimStart s = rest ↔ Blanks s rest ∧ ahead isBlank rest = false := by
  constructor
  · intro h
    have found : span isBlank s = (rest, s.takeWhile isBlank) := by rw [span, ← h]; rfl
    obtain ⟨text, inside, outside⟩ := span_eq_iff.mp found
    exact ⟨⟨_, inside, text⟩, outside⟩
  · rintro ⟨⟨w, inside, text⟩, outside⟩
    exact congrArg Prod.fst (span_eq_iff.mpr ⟨text, inside, outside⟩)

theorem blanks_trimStart (s : Text) : Blanks s (Text.trimStart s) := (trimStart_eq_iff.mp rfl).1

theorem ahead_trimStart (s : Text) : ahead isBlank (Text.trimStart s) = false :=
  (trimStart_eq_iff.mp rfl).2

theorem trimStart_eq_self {s : Text} (h : ahead isBlank s = false) : Text.trimStart s = s :=
  trimStart_eq_iff.mpr ⟨.refl s, h⟩

theorem spaces_eq_ok_iff {s w rest : Text} :
    spaces s = .ok (rest, w) ↔
      w = List.replicate w.length ' ' ∧ w ≠ [] ∧ s = w ++ rest ∧ ahead (· == ' ') rest = false := by
  rw [spaces, someOf_eq_ok_iff, span_eq_iff]
  simp only [beq_iff_eq, List.eq_replicate_iff, true_and]
  exact ⟨fun ⟨⟨h, i, j⟩, k⟩ => ⟨i, k, h, j⟩, fun ⟨i, k, h, j⟩ => ⟨⟨h, i, j⟩, k⟩⟩

theorem spaces_yields (s : Text) : Yields (spaces s) := someOf_yields

theorem not_space_of_not_blank {s : Text} (h : ahead isBlank s = false) :
    ahead (· == ' ') s = false := by
  cases s with
  | nil => rfl
  | cons c s =>
      simp only [ahead_cons, beq_eq_false_iff_ne] at h ⊢
      rintro rfl
      rw [isBlank_space] at h
      cases h

/-! ## Names and numerals -/

def isName : Text → Bool
  | [] => false
  | c :: rest => c.isAlpha && rest.all Char.isAlphanum

theorem isName_cons {c : Char} {s : Text} :
    isName (c :: s) = true ↔ c.isAlpha = true ∧ ∀ d ∈ s, d.isAlphanum = true := by
  simp only [isName, Bool.and_eq_true, List.all_eq_true]

theorem ne_nil_of_isName {name : Text} (h : isName name = true) : name ≠ [] := by
  rintro rfl
  cases h

theorem isAlphanum_of_isName {name : Text} (h : isName name = true) :
    ∀ c ∈ name, c.isAlphanum = true := by
  cases name with
  | nil => exact List.forall_mem_nil _
  | cons c name =>
      obtain ⟨alpha, inside⟩ := isName_cons.mp h
      exact List.forall_mem_cons.mpr ⟨isAlphanum_of_isAlpha alpha, inside⟩

/-- A name that nothing prolongs. -/
structure NameAt (name s rest : Text) : Prop where
  text : s = name ++ rest
  valid : isName name = true
  ends : ahead Char.isAlphanum rest = false

/-- Digits that nothing prolongs. -/
structure NumeralAt (digits s rest : Text) : Prop where
  text : s = digits ++ rest
  nonempty : digits ≠ []
  valid : ∀ c ∈ digits, c.isDigit = true
  ends : ahead Char.isDigit rest = false

/-- Names with blank characters behind each. -/
inductive NamesAt : List Text → Text → Text → Prop
  | nil {s} : NamesAt [] s s
  | cons {name names s s₁ s₂ rest} : NameAt name s s₁ → Blanks s₁ s₂ → NamesAt names s₂ rest →
      NamesAt (name :: names) s rest

theorem NameAt.ahead {name s rest : Text} (h : NameAt name s rest) :
    ahead Char.isAlpha s = true := by
  obtain ⟨rfl, valid, -⟩ := h
  cases name with
  | nil => cases valid
  | cons c name => exact (isName_cons.mp valid).1

theorem NameAt.length_lt {name s rest : Text} (h : NameAt name s rest) :
    rest.length < s.length := by
  obtain ⟨rfl, valid, -⟩ := h
  cases name with
  | nil => cases valid
  | cons c name => simp only [List.cons_append, List.length_cons, List.length_append]; omega

theorem NameAt.suffix {name s rest : Text} (h : NameAt name s rest) : rest <:+ s :=
  h.text ▸ List.suffix_append name rest

theorem identifier_eq_ok_iff {name s rest : Text} :
    identifier s = .ok (rest, name) ↔ NameAt name s rest := by
  constructor
  · intro h
    cases s with
    | nil => cases h
    | cons c s =>
        simp only [identifier] at h
        split at h
        · next alpha =>
            cases h
            obtain ⟨text, inside, outside⟩ := span_eq_iff.mp (rfl : span Char.isAlphanum s = _)
            exact ⟨congrArg (c :: ·) text, isName_cons.mpr ⟨alpha, inside⟩, outside⟩
        · cases h
  · rintro ⟨rfl, valid, ends⟩
    cases name with
    | nil => cases valid
    | cons c name =>
        obtain ⟨alpha, inside⟩ := isName_cons.mp valid
        have found := span_eq_iff.mpr ⟨rfl, inside, ends⟩
        simp only [span, Prod.mk.injEq] at found
        simp only [List.cons_append, identifier, alpha, if_true, found.1, found.2]

theorem NameAt.unique {name name' s rest rest' : Text} (h : NameAt name s rest)
    (h' : NameAt name' s rest') : name = name' ∧ rest = rest' := by
  have same := (identifier_eq_ok_iff.mpr h).symm.trans (identifier_eq_ok_iff.mpr h')
  exact ⟨(Prod.mk.inj (Except.ok.inj same)).2, (Prod.mk.inj (Except.ok.inj same)).1⟩

theorem identifier_yields (s : Text) : Yields (identifier s) := by
  cases s with
  | nil => exact .mismatch _
  | cons c s =>
      simp only [identifier]
      split
      · exact .ok _
      · exact .mismatch _

theorem digits_eq_ok_iff {w s rest : Text} : digits s = .ok (rest, w) ↔ NumeralAt w s rest := by
  rw [digits, someOf_eq_ok_iff, span_eq_iff]
  exact ⟨fun ⟨⟨h, i, j⟩, k⟩ => ⟨h, k, i, j⟩, fun ⟨h, k, i, j⟩ => ⟨⟨h, i, j⟩, k⟩⟩

theorem expect_yields (literal s : Text) : Yields (expect literal s) := by
  unfold expect
  split
  · exact .ok _
  · exact .mismatch _

end BlockCalc.Grammar
