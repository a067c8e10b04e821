/-!
# UTF-8 as it arrives

Bytes are decoded as they come. A decoder stands between characters, or inside one: then it knows
how many bytes the character still owes, the range of the next of them, and the value so far. A
sequence that breaks off becomes one replacement character, and the byte that broke it is looked at
afresh; so each longest invalid part gives one replacement, wherever the input was cut.
-/

namespace Teletype.Text

/-- What stands for bytes that are no character. -/
def replacement : Char := '\uFFFD'

inductive Decoder where
  | start
  /-- Inside a character of value so far `value`: it owes `owed` more bytes, of which the next lies
  from `low` to `high`. -/
  | inside (owed : Nat) (low high : UInt8) (value : Nat)
  deriving DecidableEq, Inhabited

namespace Decoder

/-- The first byte of a character, or a byte that cannot be one. -/
def lead (b : UInt8) : List Char × Decoder :=
  if b < 0x80 then ([Char.ofNat b.toNat], .start)
  else if b < 0xC2 then ([replacement], .start)
  else if b < 0xE0 then ([], .inside 1 0x80 0xBF (b.toNat - 0xC0))
  else if b = 0xE0 then ([], .inside 2 0xA0 0xBF 0)
  else if b = 0xED then ([], .inside 2 0x80 0x9F 0xD)
  else if b < 0xF0 then ([], .inside 2 0x80 0xBF (b.toNat - 0xE0))
  else if b = 0xF0 then ([], .inside 3 0x90 0xBF 0)
  else if b < 0xF4 then ([], .inside 3 0x80 0xBF (b.toNat - 0xF0))
  else if b = 0xF4 then ([], .inside 3 0x80 0x8F 4)
  else ([replacement], .start)

/-- One byte: the characters it completes, and where the decoder stands after it. -/
def step : Decoder → UInt8 → List Char × Decoder
  | .start, b => lead b
  | .inside owed low high value, b =>
    if low ≤ b ∧ b ≤ high then
      let value := value * 64 + (b.toNat - 0x80)
      if owed = 1 then ([Char.ofNat value], .start)
      else ([], .inside (owed - 1) 0x80 0xBF value)
    else
      let (chars, d) := lead b
      (replacement :: chars, d)

def feed (d : Decoder) : List UInt8 → List Char × Decoder
  | [] => ([], d)
  | b :: rest =>
    let (chars, d) := d.step b
    let (more, d) := feed d rest
    (chars ++ more, d)

def flush : Decoder → List Char
  | .start => []
  | .inside .. => [replacement]

/-- Decoding goes on where it stopped: a cut in the input changes nothing. -/
theorem feed_append (d : Decoder) (xs ys : List UInt8) :
    d.feed (xs ++ ys) =
      ((d.feed xs).1 ++ ((d.feed xs).2.feed ys).1, ((d.feed xs).2.feed ys).2) := by
  induction xs generalizing d with
  | nil => simp [feed]
  | cons x xs ih => simp [feed, ih]

end Decoder

/-- The bytes of a text: those of its characters, one after another. -/
def utf8 (s : String) : List UInt8 := s.toList.flatMap String.utf8EncodeChar

end Teletype.Text
