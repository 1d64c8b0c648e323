import BlockCalc.Text.Decimal
import BlockCalc.Text.Quoted
/-! Reading UTF-8. A character is one to four bytes: the first says how many follow and within
which bounds the second must lie, every further one is between 0x80 and 0xBF. The first byte that
cannot go on stops the reading, and the fault names the bytes of the character it spoils. -/
namespace BlockCalc.Encoding

inductive Reason where
  | invalidStart
  | invalidContinuation
  | unexpectedEnd
  deriving DecidableEq, Repr

/-- The bytes of a character that cannot be read: the first of them, how many there are, and
where they begin. -/
structure Fault where
  lead : Nat
  length : Nat
  position : Nat
  reason : Reason
  deriving DecidableEq, Repr

/-- What the first byte of a character promises: its own share of the code point, the bounds of
the second byte, and how many bytes follow it. -/
structure Lead where
  bits : Nat
  low : Nat
  high : Nat
  following : Nat

/-- The bounds on the second byte keep out overlong forms, surrogates and codes past the last. -/
def Lead.ofByte? (b : Nat) : Option Lead :=
  if 0xC2 ≤ b ∧ b ≤ 0xDF then some ⟨b - 0xC0, 0x80, 0xBF, 1⟩
  else if b = 0xE0 then some ⟨0, 0xA0, 0xBF, 2⟩
  else if b = 0xED then some ⟨0xD, 0x80, 0x9F, 2⟩
  else if 0xE1 ≤ b ∧ b ≤ 0xEF then some ⟨b - 0xE0, 0x80, 0xBF, 2⟩
  else if b = 0xF0 then some ⟨0, 0x90, 0xBF, 3⟩
  else if 0xF1 ≤ b ∧ b ≤ 0xF3 then some ⟨b - 0xF0, 0x80, 0xBF, 3⟩
  else if b = 0xF4 then some ⟨4, 0x80, 0x8F, 3⟩
  else none

/-- How far the following bytes carry a character: to its end, to a byte that cannot be part of
it, or to the end of the bytes. The number counts the bytes read, the first one included. -/
inductive Reach where
  | complete (code : Nat) (rest : List UInt8)
  | broken (read : Nat)
  | cut (read : Nat)

/-- Takes `following` more bytes, the next of them within `low` and `high`. -/
def Reach.extend (bits low high : Nat) : Nat → Nat → List UInt8 → Reach
  | 0, _, rest => .complete bits rest
  | _ + 1, read, [] => .cut read
  | following + 1, read, b :: rest =>
    if low ≤ b.toNat ∧ b.toNat ≤ high then
      extend (bits * 64 + (b.toNat - 0x80)) 0x80 0xBF following (read + 1) rest
    else .broken read

theorem Reach.length_of_complete {bits low high code : Nat} {rest : List UInt8} :
    ∀ {following read : Nat} {bytes : List UInt8},
      extend bits low high following read bytes = .complete code rest →
        rest.length ≤ bytes.length := by
  intro following
  induction following generalizing bits low high with
  | zero =>
    intro read bytes h
    simp only [extend, complete.injEq] at h
    exact Nat.le_of_eq (congrArg List.length h.2.symm)
  | succ following ih =>
    intro read bytes h
    cases bytes with
    | nil => simp only [extend] at h; cases h
    | cons b bytes =>
      simp only [extend] at h
      split at h
      · exact Nat.le_succ_of_le (ih h)
      · cases h

/-- Whether the bytes end with the two that a surrogate begins with. -/
def endsInSurrogate (lead : Nat) (rest : List UInt8) : Bool :=
  match rest with
  | [b] => lead == 0xED && 0xA0 ≤ b.toNat && b.toNat ≤ 0xBF
  | _ => false

/-- Reads the characters of `bytes` from `position` on. A character that the end cuts short, be it a
surrogate, is read anew on its own, so its fault counts from its own first byte. -/
def decodeFrom (position : Nat) (bytes : List UInt8) : Except Fault Text :=
  match bytes with
  | [] => .ok []
  | b :: rest =>
    if b.toNat < 0x80 then (decodeFrom (position + 1) rest).map (Char.ofNat b.toNat :: ·)
    else
      match Lead.ofByte? b.toNat with
      | none => .error ⟨b.toNat, 1, position, .invalidStart⟩
      | some lead =>
        match h : Reach.extend lead.bits lead.low lead.high lead.following 1 rest with
        | .complete code more =>
          (decodeFrom (position + lead.following + 1) more).map (Char.ofNat code :: ·)
        | .broken read =>
          let start := if endsInSurrogate b.toNat rest then 0 else position
          .error ⟨b.toNat, read, start, .invalidContinuation⟩
        | .cut read => .error ⟨b.toNat, read, 0, .unexpectedEnd⟩
termination_by bytes.length
decreasing_by
  · exact Nat.lt_succ_self _
  · exact Nat.lt_succ_of_le (Reach.length_of_complete h)

def decode (bytes : List UInt8) : Except Fault Text := decodeFrom 0 bytes

def Reason.text : Reason → Text
  | .invalidStart => "invalid start byte".toList
  | .invalidContinuation => "invalid continuation byte".toList
  | .unexpectedEnd => "unexpected end of data".toList

/-- A single byte is named by its value, several by where they stand. -/
def Fault.text (fault : Fault) : Text :=
  "'utf-8' codec can't decode ".toList
    ++ (if fault.length = 1 then
          "byte 0x".toList ++ Text.hex 2 fault.lead ++ " in position ".toList
            ++ Decimal.ofNat fault.position
        else
          "bytes in position ".toList ++ Decimal.ofNat fault.position ++ ['-']
            ++ Decimal.ofNat (fault.position + fault.length - 1))
    ++ ": ".toList ++ fault.reason.text

end BlockCalc.Encoding
