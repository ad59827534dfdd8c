/-!
# Text that is read in

Files and what is typed in are bytes: they are decoded, and then cut into lines.
-/

namespace LoxCalc

/-! ## Decoding UTF-8

Bytes are decoded one at a time. Between two characters any first byte may come; inside a character
a number of continuation bytes is owed, and the next one must lie in a range, which is narrower
right after some first bytes. The first byte that does not fit is where decoding fails; the bytes
of the character begun so far, or the byte itself if none is begun, are the faulty ones. -/

namespace Utf8

/-- What is wrong with a byte sequence. -/
inductive Reason where
  | invalidStart
  | invalidContinuation
  | unexpectedEnd
  deriving DecidableEq

/-- The first fault in a byte sequence. -/
structure Fault where
  /-- Where the faulty bytes begin. -/
  position : Nat
  /-- How many bytes are faulty. -/
  length : Nat
  /-- The first faulty byte. -/
  first : UInt8
  reason : Reason
  deriving DecidableEq

/-- A character of which some bytes have come. -/
structure Partial where
  start : Nat
  first : UInt8
  /-- The bits that have come. -/
  bits : Nat
  /-- How many more bytes are owed, not counting the next one. -/
  owed : Nat
  /-- The least value of the next byte. -/
  low : UInt8
  /-- The greatest value of the next byte. -/
  high : UInt8

/-- The character that a first byte begins, if it begins one of several bytes. -/
def Partial.begin? (position : Nat) (b : UInt8) : Option Partial :=
  let begun bits owed low high := some ⟨position, b, bits, owed, low, high⟩
  if b < 0xC2 then none
  else if b < 0xE0 then begun (b.toNat - 0xC0) 0 0x80 0xBF
  else if b < 0xF0 then
    begun (b.toNat - 0xE0) 1 (if b = 0xE0 then 0xA0 else 0x80) (if b = 0xED then 0x9F else 0xBF)
  else if b < 0xF5 then
    begun (b.toNat - 0xF0) 2 (if b = 0xF0 then 0x90 else 0x80) (if b = 0xF4 then 0x8F else 0xBF)
  else none

/-- Decodes the bytes from a position on, with a character begun or not. -/
def decodeFrom (position : Nat) (begun : Option Partial) : List UInt8 → Except Fault (List Char)
  | [] =>
    match begun with
    | none => .ok []
    | some p => .error ⟨p.start, position - p.start, p.first, .unexpectedEnd⟩
  | b :: rest =>
    match begun with
    | none =>
      if b < 0x80 then
        (decodeFrom (position + 1) none rest).map (Char.ofNat b.toNat :: ·)
      else
        match Partial.begin? position b with
        | none => .error ⟨position, 1, b, .invalidStart⟩
        | some p => decodeFrom (position + 1) (some p) rest
    | some p =>
      if p.low ≤ b ∧ b ≤ p.high then
        let bits := p.bits * 64 + (b.toNat - 0x80)
        match p.owed with
        | 0 => (decodeFrom (position + 1) none rest).map (Char.ofNat bits :: ·)
        | owed + 1 =>
          decodeFrom (position + 1) (some { p with bits, owed, low := 0x80, high := 0xBF }) rest
      else .error ⟨p.start, position - p.start, p.first, .invalidContinuation⟩

/-- Decodes bytes. -/
def decode (bytes : List UInt8) : Except Fault (List Char) :=
  decodeFrom 0 none bytes

/-- A reason in words. -/
def Reason.text : Reason → String
  | .invalidStart => "invalid start byte"
  | .invalidContinuation => "invalid continuation byte"
  | .unexpectedEnd => "unexpected end of data"

/-- A byte in lower-case hexadecimal. -/
def hexByte (b : UInt8) : String :=
  let digits := Nat.toDigits 16 b.toNat
  String.ofList (List.replicate (2 - digits.length) '0' ++ digits)

/-- A fault in words: one faulty byte is shown, several are located. -/
def Fault.text (f : Fault) : String :=
  let subject :=
    if f.length = 1 then "byte 0x" ++ hexByte f.first ++ " in position " ++ toString f.position
    else
      "bytes in position " ++ toString f.position ++ "-" ++ toString (f.position + f.length - 1)
  "'utf-8' codec can't decode " ++ subject ++ ": " ++ f.reason.text

end Utf8

/-! ## Lines

A line ends with a line feed, a carriage return, or both in this order; every such ending counts as
one line feed. -/

namespace Text

/-- A text with every line ending written as a line feed. -/
def unifyNewlines : List Char → List Char
  | [] => []
  | '\r' :: '\n' :: rest => '\n' :: unifyNewlines rest
  | '\r' :: rest => '\n' :: unifyNewlines rest
  | c :: rest => c :: unifyNewlines rest

/-- The lines of a text, the line feeds left out. What follows the last line feed is a line unless
it is empty. -/
def splitLines : List Char → List (List Char)
  | [] => []
  | c :: rest =>
    if c = '\n' then [] :: splitLines rest
    else
      match splitLines rest with
      | [] => [[c]]
      | line :: lines => (c :: line) :: lines

/-- The lines of a text with any line endings. -/
def lines (text : String) : List String :=
  (splitLines (unifyNewlines text.toList)).map String.ofList

end Text
end LoxCalc
