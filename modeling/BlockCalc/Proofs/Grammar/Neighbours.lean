import BlockCalc.Proofs.Grammar.Balance
import BlockCalc.Proofs.Grammar.Locality
import BlockCalc.Proofs.Tree.RoundTrip
/-! Statements on lines of their own. What is read to the end of a text is read just so in front of a
newline, whatever lines come behind it: numerals and names end there, and a word that stands alone
begins no definition, as only spaces may follow it. Inside a block nothing changes either, since the
head of a definition cannot go past the brace that closes the block. So the statements between two
braces are those of their lines, none merged with its neighbours or split. -/
namespace BlockCalc.Grammar
variable {name s rest q r : Text} {names : List Text}

theorem ahead_behind {p : Char → Bool} (h : ahead p q = false) (stop : ahead p r = false) :
    ahead p (q ++ r) = false := by
  cases q with
  | nil => exact stop
  | cons c q => exact h

/-! ## Places inside a block -/

/-- A place inside a block: further on a brace is closed that is open here. -/
def Enclosed (s : Text) : Prop := ∃ q, BracedTo s ('}' :: q)

theorem Enclosed.of_bracedTo (h : BracedTo s rest) (inside : Enclosed rest) : Enclosed s := by
  obtain ⟨q, close⟩ := inside
  exact ⟨q, h.trans close⟩

/-- What is settled with its braces ends in front of the brace that closes the block. -/
theorem Enclosed.cut (inside : Enclosed s) (h : BracedTo (s ++ r) rest) :
    ∃ q, rest = q ++ r := by
  obtain ⟨q, v, settled, rfl⟩ := inside
  obtain ⟨w, braced, text⟩ := h
  rcases List.append_eq_append_iff.mp text with ⟨a, rfl, -⟩ | ⟨b, -, rfl⟩
  · -- the closing brace would be one too many in the text that is settled
    have start : v ++ ['}'] <+: v ++ '}' :: q ++ a := by
      simp only [List.append_assoc, List.cons_append, List.prefix_append_right_inj,
        List.cons_prefix_cons, List.nil_prefix, and_self]
    have count := braced.nested _ start
    rw [List.count_append, List.count_append, settled.balanced] at count
    exact False.elim (Nat.not_succ_le_self _ count)
  · exact ⟨b, rfl⟩

theorem DefinitionAhead.of_enclosed (inside : Enclosed s) (h : DefinitionAhead (s ++ r)) :
    DefinitionAhead s := by
  rcases h with ⟨name, rest, head⟩ | ⟨name, params, rest, head⟩
  · obtain ⟨q, rfl⟩ := inside.cut head.braced
    obtain ⟨s', same, inner⟩ := head.cut
    exact .inl ⟨name, q, List.append_cancel_right same ▸ inner⟩
  · obtain ⟨q, rfl⟩ := inside.cut head.braced
    obtain ⟨s', same, inner⟩ := head.cut
    exact .inr ⟨name, params, q, List.append_cancel_right same ▸ inner⟩

/-! ## In front of a newline -/

theorem NameAt.before_line (h : NameAt name s rest) (line : LineEnds r) :
    NameAt name (s ++ r) (rest ++ r) := by
  obtain ⟨rfl, valid, ends⟩ := h
  exact ⟨List.append_assoc name rest r, valid, ahead_behind ends (line.ahead rfl)⟩

theorem NumeralAt.before_line {w : Text} (h : NumeralAt w s rest) (line : LineEnds r) :
    NumeralAt w (s ++ r) (rest ++ r) := by
  obtain ⟨rfl, nonempty, valid, ends⟩ := h
  exact ⟨List.append_assoc w rest r, nonempty, valid, ahead_behind ends (line.ahead rfl)⟩

/-- Where statements may end, so that what follows on other lines makes no definition of them. -/
def Phrase.Apart : Phrase → Text → Prop
  | .stmt _, rest => rest = [] ∨ Enclosed rest
  | .stmts _, rest => Enclosed rest
  | _, _ => True

/-- A canonical derivation stays so in front of a newline and any lines behind it. -/
theorem Derives.before_line {ph : Phrase} (h : Derives .canonical ph s rest) (line : LineEnds r)
    (apart : ph.Apart rest) : Derives .canonical ph (s ++ r) (rest ++ r) := by
  induction h with
  | number hn small short => exact .number (hn.before_line line) small short
  | usage hn => exact .usage (hn.before_line line)
  | @block ts s s₁ rest hb hs ih => exact .block (hb.extend r) (ih ⟨rest, .refl _⟩)
  | operand he ih => exact .operand (ih trivial)
  | @operation a b _ _ _ _ _ op ha hb hc hd ia ib =>
      have sign := hb.extend r
      rw [List.append_assoc] at sign
      exact .operation (ia trivial) sign (hc.extend r) (ib trivial)
  | binding hh hv ih => exact .binding (hh.extend r) (ih trivial)
  | function hh hb ih => exact .function (hh.extend r) (ih apart)
  | bare hp he ih =>
      have whole := ih trivial
      refine .bare (fun definition => ?_) whole
      rcases apart with rfl | inside
      · exact not_definition_of_lineEnds whole line definition
      · exact hp (definition.of_enclosed (.of_bracedTo he.braced inside))
  | nil => exact .nil
  | cons ht hb hs it is =>
      have first := Enclosed.of_bracedTo (hb.braced.trans hs.braced) apart
      exact .cons (it (.inr first)) (hb.extend r) (is apart)

/-- A statement that is read to the end of a text has a canonical derivation in front of any
further lines. -/
theorem derives_before_line {limit : Nat} {t : Stmt} (h : parseWithin limit s = .ok t)
    (line : LineEnds r) : Derives .canonical (.stmt t) (s ++ r) r := by
  obtain ⟨c, rfl, whole⟩ := stmt_canonical (parseWithin_eq_ok_iff.mp h)
  rw [List.append_nil]
  exact whole.before_line line (.inl rfl)

/-! ## Blocks -/

/-- Statements on lines of their own are derived one by one, up to the brace that closes them. -/
theorem derives_lines {limit : Nat} {texts : List Text} {ts : List Stmt}
    (read : texts.map (parseWithin limit) = ts.map .ok) (rest : Text) :
    ∃ s, Blanks (Text.joinWith ['\n'] texts ++ '\n' :: '}' :: rest) s ∧
      Derives .canonical (.stmts ts) s ('}' :: rest) := by
  have newline : ∀ {s s₁ : Text}, Blanks s s₁ → Blanks ('\n' :: s) s₁ := by
    rintro s s₁ ⟨w, blank, rfl⟩
    exact ⟨'\n' :: w, List.forall_mem_cons.mpr ⟨rfl, blank⟩, rfl⟩
  induction texts generalizing ts with
  | nil =>
      obtain rfl := List.map_eq_nil_iff.mp read.symm
      exact ⟨_, newline (.refl _), .nil⟩
  | cons text texts ih =>
      obtain ⟨t, ts, rfl, here, others⟩ := List.map_eq_cons_iff.mp read.symm
      obtain ⟨s, gap, stmts⟩ := ih others.symm
      cases texts with
      | nil =>
          have first := derives_before_line here.symm (r := '\n' :: '}' :: rest) rfl
          exact ⟨_, .refl _, .cons first gap stmts⟩
      | cons next texts =>
          have first := derives_before_line here.symm
            (r := '\n' :: (Text.joinWith ['\n'] (next :: texts) ++ '\n' :: '}' :: rest)) rfl
          refine ⟨_, ⟨[], List.forall_mem_nil _, ?_⟩, .cons first (newline gap) stmts⟩
          rw [joinWith_cons_cons]
          simp only [List.append_assoc, List.cons_append, List.nil_append]

theorem parseWithin_of_reach {limit depth : Nat} {t : Stmt}
    (h : stmt limit s = reach limit depth ([], t)) :
    parseWithin limit s =
      if depth ≤ limit then .ok t else .error (.mismatch .nestedTooDeeply) := by
  rcases Nat.lt_or_ge limit depth with deep | level
  · rw [reach_of_lt deep] at h
    rw [parseWithin, h, if_neg (Nat.not_le.mpr deep)]
  · rw [reach_of_le level] at h
    rw [parseWithin, h, if_pos level]

/-- Texts that are statements are, on lines of their own between braces, exactly the statements of a
block, or refused as too deep where these take all levels of the reader. -/
theorem parseWithin_block_lines {limit : Nat} {texts : List Text} {ts : List Stmt}
    (read : texts.map (parseWithin limit) = ts.map .ok) (limit' : Nat) :
    parseWithin limit' ("\x7b\n".toList ++ Text.joinWith ['\n'] texts ++ "\n\x7d".toList) =
      if (Stmt.expr (.block ts)).depth ≤ limit' then .ok (.expr (.block ts))
      else .error (.mismatch .nestedTooDeeply) := by
  obtain ⟨s, ⟨w, blank, text⟩, stmts⟩ := derives_lines read []
  have opening : "\x7b\n".toList = ['{', '\n'] := rfl
  have closing : "\n\x7d".toList = ['\n', '}'] := rfl
  have gap : Blanks ('\n' :: (w ++ s)) s := ⟨'\n' :: w, List.forall_mem_cons.mpr ⟨rfl, blank⟩, rfl⟩
  have whole : Derives .canonical (.stmt (.expr (.block ts))) ('{' :: '\n' :: (w ++ s)) [] := by
    have bare := Derives.operand (.block gap stmts)
    exact .bare (not_definition_of_lineEnds bare trivial) bare
  have found : stmt limit' ('{' :: '\n' :: (w ++ s)) = reach limit' _ ([], _) :=
    whole.read limit' rfl
  rw [opening, closing, List.append_assoc, text]
  exact parseWithin_of_reach found

/-- Words of definitions at the ends of lines. With a space for the first newline the first two
lines would be one function. -/
theorem parseWithin_block_lines_words :
    parse "\x7b\nfn\nfn f => let\nlet\nx\n\x7d".toList = .ok
        (.expr (.block [.expr (.usage ['f', 'n']),
          .function ['f'] [] (.expr (.usage ['l', 'e', 't'])),
          .expr (.usage ['l', 'e', 't']), .expr (.usage ['x'])])) ∧
      parse "\x7b\nfn fn f => let\nlet\nx\n\x7d".toList = .ok
        (.expr (.block [.function ['f', 'n'] [['f']] (.expr (.usage ['l', 'e', 't'])),
          .expr (.usage ['l', 'e', 't']), .expr (.usage ['x'])])) := by
  have read : ["fn".toList, "fn f => let".toList, "let".toList, "x".toList].map
      (parseWithin nestingLimit) = [Stmt.expr (.usage ['f', 'n']),
        .function ['f'] [] (.expr (.usage ['l', 'e', 't'])), .expr (.usage ['l', 'e', 't']),
        .expr (.usage ['x'])].map .ok := by decide +kernel
  exact ⟨parseWithin_block_lines read nestingLimit, by decide +kernel⟩

end BlockCalc.Grammar
