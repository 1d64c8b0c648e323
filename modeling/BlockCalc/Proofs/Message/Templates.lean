import BlockCalc.Message.Basic
/-! Templates as texts with gaps. A template that was read from the left is some texts, written with
their braces doubled, and a slot between each two of them; where it goes wrong, these are followed by
a brace that makes no pair. The texts do not depend on the snippets, and the snippets come between
them as they are, in a message without emphasis as in one with it. -/
namespace BlockCalc
namespace Template
variable {c : Char} {s t : Text} {template : Text}

/-- A text as it is written in a template. -/
def escape (s : Text) : Text := s.flatMap fun c => if c = '{' ∨ c = '}' then [c, c] else [c]

/-- A brace at the beginning of a text that makes no pair with the character behind it. -/
inductive Stray : Char → Text → Prop
  | opening {rest} : rest.head? ≠ some '{' → rest.head? ≠ some '}' → Stray '{' ('{' :: rest)
  | closing {rest} : rest.head? ≠ some '}' → Stray '}' ('}' :: rest)

/-- The text in front of all slots, the text behind each slot, and the rest of the template from the
first mistake on. -/
structure Outline where
  first : Text
  later : List Text
  rest : Text
  deriving DecidableEq, Repr

namespace Outline
variable {o o' : Outline}

def slots (o : Outline) : Nat := o.later.length

def written (o : Outline) : Text :=
  escape o.first ++ (o.later.flatMap (fun piece => '{' :: '}' :: escape piece) ++ o.rest)

/-- Nothing is left of the template, or it goes on with a mistake. -/
def Complete (o : Outline) : Prop := o.rest = [] ∨ ∃ brace, Stray brace o.rest

def filled (o : Outline) (texts : List Text) : Text :=
  o.first ++ (List.zipWith (· ++ ·) texts o.later).flatten

def prepend (c : Char) (o : Outline) : Outline := { o with first := c :: o.first }

def behindSlot (o : Outline) : Outline := ⟨[], o.first :: o.later, o.rest⟩

end Outline

/-- The outline of a template, read from the left. -/
def outline : Text → Outline
  | [] => ⟨[], [], []⟩
  | '{' :: '{' :: rest => (outline rest).prepend '{'
  | '}' :: '}' :: rest => (outline rest).prepend '}'
  | '{' :: '}' :: rest => (outline rest).behindSlot
  | c :: rest => if c = '{' ∨ c = '}' then ⟨[], [], c :: rest⟩ else (outline rest).prepend c

theorem outline_literal (h : ¬ (c = '{' ∨ c = '}')) (s : Text) :
    outline (c :: s) = (outline s).prepend c := by
  obtain ⟨first, second⟩ := not_or.mp h
  rw [outline.eq_5 _ _ (fun _ same _ => first same) (fun _ same _ => second same)
    (fun _ same _ => first same), if_neg h]

theorem outline_stray (h : Stray c s) : outline s = ⟨[], [], s⟩ := by
  cases h with
  | opening other other' =>
      rw [outline.eq_5, if_pos (.inl rfl)]
      · rintro rest - rfl
        exact other rfl
      · nofun
      · rintro rest - rfl
        exact other' rfl
  | closing other =>
      rw [outline.eq_5, if_pos (.inr rfl)]
      · nofun
      · rintro rest - rfl
        exact other rfl
      · nofun

/-! ## Outlines and their templates -/

theorem escape_brace (h : c = '{' ∨ c = '}') (s : Text) : escape (c :: s) = c :: c :: escape s :=
  congrArg (· ++ escape s) (if_pos h)

theorem escape_literal (h : ¬ (c = '{' ∨ c = '}')) (s : Text) : escape (c :: s) = c :: escape s :=
  congrArg (· ++ escape s) (if_neg h)

theorem outline_escape (s t : Text) :
    outline (escape s ++ t) = { outline t with first := s ++ (outline t).first } := by
  induction s with
  | nil => rfl
  | cons c s ih =>
      by_cases brace : c = '{' ∨ c = '}'
      · rw [escape_brace brace]
        rcases brace with rfl | rfl
        · rw [List.cons_append, List.cons_append, outline, ih]
          rfl
        · rw [List.cons_append, List.cons_append, outline, ih]
          rfl
      · rw [escape_literal brace, List.cons_append, outline_literal brace, ih]
        rfl

namespace Outline
variable {o o' : Outline}

theorem outline_later (later : List Text) (h : outline t = ⟨[], [], t⟩) :
    outline (later.flatMap (fun piece => '{' :: '}' :: escape piece) ++ t) = ⟨[], later, t⟩ := by
  induction later with
  | nil => exact h
  | cons piece later ih =>
      rw [List.flatMap_cons, List.append_assoc, List.cons_append, List.cons_append, outline,
        outline_escape, ih, behindSlot, List.append_nil]

/-- Reading finds the outline that a template was written from. -/
theorem Complete.outline_written (h : o.Complete) : outline o.written = o := by
  have last : outline o.rest = ⟨[], [], o.rest⟩ := by
    rcases h with none | ⟨brace, stray⟩
    · rw [none]
      rfl
    · exact outline_stray stray
  rw [written, outline_escape, outline_later o.later last, List.append_nil]

theorem Complete.unique (h : o.Complete) (h' : o'.Complete) (same : o.written = o'.written) :
    o = o' := by
  rw [← h.outline_written, same, h'.outline_written]

theorem written_prepend_brace (h : c = '{' ∨ c = '}') (o : Outline) :
    (o.prepend c).written = c :: c :: o.written := by
  rw [written, prepend, escape_brace h]
  rfl

theorem written_prepend_literal (h : ¬ (c = '{' ∨ c = '}')) (o : Outline) :
    (o.prepend c).written = c :: o.written := by
  rw [written, prepend, escape_literal h]
  rfl

theorem written_behindSlot (o : Outline) : o.behindSlot.written = '{' :: '}' :: o.written := by
  rw [written, behindSlot, List.flatMap_cons, List.append_assoc]
  rfl

end Outline

theorem written_outline (template : Text) : (outline template).written = template := by
  fun_induction outline template with
  | case1 => rfl
  | case2 rest ih => rw [Outline.written_prepend_brace (.inl rfl), ih]
  | case3 rest ih => rw [Outline.written_prepend_brace (.inr rfl), ih]
  | case4 rest ih => rw [Outline.written_behindSlot, ih]
  | case5 c rest _ _ _ brace => rfl
  | case6 c rest _ _ _ literal ih => rw [Outline.written_prepend_literal literal, ih]

theorem outline_complete (template : Text) : (outline template).Complete := by
  fun_induction outline template with
  | case1 => exact .inl rfl
  | case2 rest ih => exact ih
  | case3 rest ih => exact ih
  | case4 rest ih => exact ih
  | case5 c rest first second third brace =>
      have alone {brace' : Char} (pairs : ∀ rest', rest = brace' :: rest' → False) :
          rest.head? ≠ some brace' := fun head =>
        (List.head?_eq_some_iff.mp head).elim fun rest' same => pairs rest' same
      refine .inr ⟨c, ?_⟩
      rcases brace with rfl | rfl
      · exact .opening (alone fun rest' => first rest' rfl) (alone fun rest' => third rest' rfl)
      · exact .closing (alone fun rest' => second rest' rfl)
  | case6 c rest _ _ _ _ ih => exact ih

/-! ## Filling the slots -/

namespace Outline
variable {o : Outline} {snippets : List Text} {slot : Nat} {brace : Char}

def pieces (o : Outline) (snippets : List Text) : List Piece :=
  o.first.map (fun c => .plain [c]) ++
    (List.zipWith (fun snippet piece => .snippet snippet :: piece.map fun c => .plain [c])
      snippets o.later).flatten

/-- What filling makes of an outline behind `slot` others: the first slot without a snippet counts
before the mistake behind all slots. -/
def fill (o : Outline) (snippets : List Text) (slot : Nat) : Except Fault (List Piece) :=
  if snippets.length < o.slots then .error (.missingSnippet (slot + snippets.length))
  else
    match o.rest with
    | [] => .ok (o.pieces snippets)
    | brace :: _ => .error (.strayBrace brace)

theorem fill_short (short : snippets.length < o.slots) :
    o.fill snippets slot = .error (.missingSnippet (slot + snippets.length)) := if_pos short

theorem fill_finished (none : o.rest = []) (enough : o.slots ≤ snippets.length) :
    o.fill snippets slot = .ok (o.pieces snippets) := by
  rw [fill, if_neg (Nat.not_lt.mpr enough), none]

theorem fill_stray (stray : Stray brace o.rest) (enough : o.slots ≤ snippets.length) :
    o.fill snippets slot = .error (.strayBrace brace) := by
  rw [fill, if_neg (Nat.not_lt.mpr enough)]
  generalize o.rest = rest at stray ⊢
  cases stray <;> rfl

theorem fill_prepend (c : Char) (o : Outline) (snippets : List Text) (slot : Nat) :
    (o.prepend c).fill snippets slot = (o.fill snippets slot).map (.plain [c] :: ·) := by
  obtain ⟨first, later, rest⟩ := o
  rw [fill, fill, prepend]
  by_cases short : snippets.length < later.length
  · simp only [slots, short, if_true]
    rfl
  · simp only [slots, short, if_false]
    cases rest <;> rfl

theorem fill_behindSlot (o : Outline) (snippet : Text) (snippets : List Text) (slot : Nat) :
    o.behindSlot.fill (snippet :: snippets) slot =
      (o.fill snippets (slot + 1)).map (.snippet snippet :: ·) := by
  obtain ⟨first, later, rest⟩ := o
  rw [fill, fill, behindSlot]
  simp only [slots, List.length_cons, Nat.add_lt_add_iff_right]
  by_cases short : snippets.length < later.length
  · -- the slot that lacks its snippet has the same number, counted from one slot further on
    simp only [short, if_true, Except.map]
    rw [Nat.add_right_comm, Nat.add_assoc]
  · simp only [short, if_false]
    cases rest <;> rfl

end Outline

theorem tokens_literal (h : ¬ (c = '{' ∨ c = '}')) (s : Text) :
    tokens (c :: s) = .literal c :: tokens s := by
  obtain ⟨first, second⟩ := not_or.mp h
  rw [tokens.eq_5 _ _ (fun _ same _ => first same) (fun _ same _ => second same)
    (fun _ same _ => first same), if_neg h]

/-- Filling the tokens of a template depends on it through its outline alone. -/
theorem fill_tokens (template : Text) (snippets : List Text) (slot : Nat) :
    fill (tokens template) snippets slot = (outline template).fill snippets slot := by
  fun_induction outline template generalizing snippets slot with
  | case1 =>
      have none : Outline.slots ⟨[], [], []⟩ ≤ snippets.length := Nat.zero_le _
      rw [Outline.fill_finished rfl none, Outline.pieces, List.zipWith_nil_right]
      rfl
  | case2 rest ih =>
      rw [Outline.fill_prepend, ← ih]
      rfl
  | case3 rest ih =>
      rw [Outline.fill_prepend, ← ih]
      rfl
  | case4 rest ih =>
      cases snippets with
      | nil => rfl
      | cons snippet snippets =>
          rw [Outline.fill_behindSlot, ← ih]
          rfl
  | case5 c rest first second third brace =>
      rw [tokens.eq_5 _ _ first second third, if_pos brace]
      rfl
  | case6 c rest _ _ _ literal ih =>
      rw [Outline.fill_prepend, ← ih, tokens_literal literal]
      rfl

/-! ## The text of the pieces -/

section
variable {f : Piece → Text}

theorem flatMap_plain (plain : ∀ s, f (.plain s) = s) (s : Text) :
    (s.map fun c => Piece.plain [c]).flatMap f = s := by
  induction s with
  | nil => rfl
  | cons c s ih => rw [List.map_cons, List.flatMap_cons, plain, ih, List.singleton_append]

/-- Pieces are put together with each snippet as `f` shows it. -/
theorem Outline.flatMap_pieces (plain : ∀ s, f (.plain s) = s) (o : Outline)
    (snippets : List Text) :
    (o.pieces snippets).flatMap f = o.filled (snippets.map fun snippet => f (.snippet snippet)) := by
  rw [pieces, filled, List.flatMap_append, flatMap_plain plain]
  congr 1
  generalize o.later = later
  induction later generalizing snippets with
  | nil => rw [List.zipWith_nil_right, List.zipWith_nil_right, List.flatten_nil, List.flatMap_nil,
      List.flatten_nil]
  | cons piece later ih =>
      cases snippets with
      | nil => rfl
      | cons snippet snippets =>
          rw [List.zipWith_cons_cons, List.flatten_cons, List.flatMap_append, ih,
            List.flatMap_cons, flatMap_plain plain, List.map_cons, List.zipWith_cons_cons,
            List.flatten_cons]

end
end Template

namespace Message
open Template
variable {kind : MessageKind} {template : Text} {snippets : List Text} {internal : Bool}

theorem ofTemplate_eq (kind : MessageKind) (template : Text) (snippets : List Text)
    (internal : Bool) :
    ofTemplate kind template snippets internal =
      ((outline template).fill snippets 0).map fun pieces =>
        ⟨kind, pieces, snippets, internal⟩ := by
  rw [ofTemplate, Template.pieces, fill_tokens]

theorem colored_pieces (kind : MessageKind) (o : Outline) (snippets : List Text) (internal : Bool)
    (coloring : Coloring) :
    colored coloring ⟨kind, o.pieces snippets, snippets, internal⟩ =
      o.filled (snippets.map coloring.bold) := Outline.flatMap_pieces (fun _ => rfl) o snippets

theorem text_pieces (kind : MessageKind) (o : Outline) (snippets : List Text) (internal : Bool) :
    text ⟨kind, o.pieces snippets, snippets, internal⟩ = o.filled snippets := by
  rw [← colored_plain, colored_pieces]
  exact congrArg o.filled (List.map_id snippets)

/-- The message made of an outline with nothing wrong and enough snippets. -/
theorem ofTemplate_finished (none : (outline template).rest = [])
    (enough : (outline template).slots ≤ snippets.length) :
    ofTemplate kind template snippets internal =
      .ok ⟨kind, (outline template).pieces snippets, snippets, internal⟩ := by
  rw [ofTemplate_eq, Outline.fill_finished none enough]
  rfl

/-- A template has one outline, which tells what becomes of it with any snippets: the plain and the
coloured text where there are enough, and the mistake furthest to the left where there are not. -/
theorem ofTemplate_outlined (template : Text) :
    ∃ o : Outline, o.written = template ∧ o.Complete ∧
      (∀ o' : Outline, o'.written = template → o'.Complete → o' = o) ∧
      ∀ kind snippets internal,
        (o.rest = [] → o.slots ≤ snippets.length →
          ∃ message, ofTemplate kind template snippets internal = .ok message ∧
            message.snippets = snippets ∧ message.text = o.filled snippets ∧
            ∀ coloring : Coloring,
              message.colored coloring = o.filled (snippets.map coloring.bold) ∧
              ∃ bold, ofTemplate kind template (snippets.map coloring.bold) internal = .ok bold ∧
                bold.text = message.colored coloring) ∧
        (snippets.length < o.slots →
          ofTemplate kind template snippets internal =
            .error (.missingSnippet snippets.length)) ∧
        ∀ brace, Stray brace o.rest → o.slots ≤ snippets.length →
          ofTemplate kind template snippets internal = .error (.strayBrace brace) := by
  have complete := outline_complete template
  have written := written_outline template
  refine ⟨outline template, written, complete, ?_, ?_⟩
  · rintro o' rfl complete'
    exact complete'.unique complete written.symm
  · intro kind snippets internal
    refine ⟨fun none enough => ?_, fun short => ?_, fun brace stray enough => ?_⟩
    · refine ⟨_, ofTemplate_finished none enough, rfl, text_pieces .., fun coloring => ?_⟩
      have enough' : (outline template).slots ≤ (snippets.map coloring.bold).length := by
        rw [List.length_map]
        exact enough
      refine ⟨colored_pieces .., _, ofTemplate_finished none enough', ?_⟩
      rw [text_pieces, colored_pieces]
    · rw [ofTemplate_eq, Outline.fill_short short, Nat.zero_add]
      rfl
    · rw [ofTemplate_eq, Outline.fill_stray stray enough]
      rfl

/-- A slot in doubled braces takes a snippet of braces as it is; and of a missing snippet and a
brace behind its slot the snippet is the mistake. -/
theorem ofTemplate_outlined_braces :
    (∃ message, ofTemplate .general "\x7b\x7b\x7b\x7d\x7d\x7d".toList ["\x7b\x7d\x7d".toList] false =
        .ok message ∧ message.text = "\x7b\x7b\x7d\x7d\x7d".toList ∧
        message.colored .ansi = "\x7b\x1b[1m\x7b\x7d\x7d\x1b[0m\x7d".toList) ∧
      ofTemplate .general "\x7b\x7d \x7b\x7d\x7d".toList [['x']] false =
        .error (.missingSnippet 1) ∧
      ofTemplate .general "\x7b\x7d \x7b\x7d\x7d".toList [['x'], ['y']] false =
        .error (.strayBrace '}') := by
  obtain ⟨o, -, -, unique, made⟩ := ofTemplate_outlined "\x7b\x7b\x7b\x7d\x7d\x7d".toList
  obtain rfl := unique ⟨['{'], [['}']], []⟩ (by decide) (.inl rfl)
  obtain ⟨o, -, -, unique', made'⟩ := ofTemplate_outlined "\x7b\x7d \x7b\x7d\x7d".toList
  have stray : Stray '}' ['}'] := .closing nofun
  obtain rfl := unique' ⟨[], [[' '], []], ['}']⟩ (by decide) (.inr ⟨_, stray⟩)
  obtain ⟨message, formatted, -, plain, colored⟩ :=
    (made .general ["\x7b\x7d\x7d".toList] false).1 rfl (by decide)
  refine ⟨⟨message, formatted, plain, (colored .ansi).1⟩, ?_, ?_⟩
  · exact (made' .general [['x']] false).2.1 (by decide)
  · exact (made' .general [['x'], ['y']] false).2.2 '}' stray (by decide)

end Message
end BlockCalc
