import Playthrough.Text.Hex

/-!
# UTF-8

Characters as bytes and back.  The reader takes one byte at a time and knows which
bytes may follow, so it stops at the first byte that no text has in that place.  A
fault names the span of the valid beginning that the bad byte breaks off.
-/

namespace Playthrough.Text.Utf8

/-! ## Writing -/

def continuation (n : Nat) : UInt8 := .ofNat (0x80 + n % 0x40)

def encodeChar (c : Char) : List UInt8 :=
  let n := c.toNat
  if n < 0x80 then [.ofNat n]
  else if n < 0x800 then [.ofNat (0xc0 + n / 0x40), continuation n]
  else if n < 0x10000 then
    [.ofNat (0xe0 + n / 0x1000), continuation (n / 0x40), continuation n]
  else
    [.ofNat (0xf0 + n / 0x40000), continuation (n / 0x1000), continuation (n / 0x40),
      continuation n]

def encode (cs : List Char) : List UInt8 := cs.flatMap encodeChar

/-! ## Reading -/

inductive Reason where
  | invalidStart
  | invalidContinuation
  | truncated
  deriving DecidableEq, Repr

/-- The span from `start` on holds `length` bytes, the first of them `first`. -/
structure Fault where
  reason : Reason
  first : UInt8
  start : Nat
  length : Nat
  deriving DecidableEq, Repr

/-- A character that has begun: its first byte, how many bytes have been read and how
many are still to come, the bits read so far, and the range of the next byte. -/
structure Begun where
  first : UInt8
  taken : Nat
  owed : Nat
  bits : Nat
  low : Nat
  high : Nat
  deriving DecidableEq, Repr

/-- What the first byte of a longer character promises.  The range of the second byte
leaves out overlong forms, surrogates and numbers beyond the last character. -/
def begin? (byte : UInt8) : Option Begun :=
  let n := byte.toNat
  if 0xc2 ≤ n ∧ n ≤ 0xdf then some ⟨byte, 1, 1, n - 0xc0, 0x80, 0xbf⟩
  else if 0xe0 ≤ n ∧ n ≤ 0xef then
    some ⟨byte, 1, 2, n - 0xe0, if n = 0xe0 then 0xa0 else 0x80, if n = 0xed then 0x9f else 0xbf⟩
  else if 0xf0 ≤ n ∧ n ≤ 0xf4 then
    some ⟨byte, 1, 3, n - 0xf0, if n = 0xf0 then 0x90 else 0x80, if n = 0xf4 then 0x8f else 0xbf⟩
  else none

def Begun.push (begun : Begun) (byte : UInt8) : Begun :=
  { begun with
    taken := begun.taken + 1
    owed := begun.owed - 1
    bits := begun.bits * 0x40 + (byte.toNat - 0x80)
    low := 0x80
    high := 0xbf }

/-- The characters of some bytes, `position` bytes into a text, where a character may
have begun before them. -/
def scan : Option Begun → Nat → List UInt8 → Except Fault (List Char)
  | none, _, [] => .ok []
  | some begun, position, [] =>
      .error ⟨.truncated, begun.first, position - begun.taken, begun.taken⟩
  | none, position, byte :: rest =>
      if byte.toNat < 0x80 then
        (scan none (position + 1) rest).map (Char.ofNat byte.toNat :: ·)
      else
        match begin? byte with
        | some begun => scan (some begun) (position + 1) rest
        | none => .error ⟨.invalidStart, byte, position, 1⟩
  | some begun, position, byte :: rest =>
      if begun.low ≤ byte.toNat ∧ byte.toNat ≤ begun.high then
        let more := begun.push byte
        if more.owed = 0 then (scan none (position + 1) rest).map (Char.ofNat more.bits :: ·)
        else scan (some more) (position + 1) rest
      else .error ⟨.invalidContinuation, begun.first, position - begun.taken, begun.taken⟩

def decode (bytes : List UInt8) : Except Fault (List Char) := scan none 0 bytes

/-! ## Messages -/

namespace Reason

def message : Reason → String
  | invalidStart => "invalid start byte"
  | invalidContinuation => "invalid continuation byte"
  | truncated => "unexpected end of data"

end Reason

namespace Fault

/-- A span of one byte is named by the byte, a longer one by its first and last
position. -/
def span (fault : Fault) : String :=
  if fault.length = 1 then
    "byte 0x" ++ .ofList (Hex.digits 2 fault.first.toNat) ++ " in position " ++
      toString fault.start
  else
    "bytes in position " ++ toString fault.start ++ "-" ++
      toString (fault.start + fault.length - 1)

def message (fault : Fault) : String :=
  "'utf-8' codec can't decode " ++ fault.span ++ ": " ++ fault.reason.message

end Fault

end Playthrough.Text.Utf8
