import Playthrough.Json.Fault
import Playthrough.Text.Hex

/-!
# Reading strings

A string is made of characters and escapes.  An escape may name a UTF-16 unit, and two
of them a character beyond the first plane.  A unit that is half of such a pair, without
the other half, stays a surrogate in the text.
-/

namespace Playthrough.Json.Reader

/-- Put a code point in front of others; a leading surrogate joins a trailing one that
follows it. -/
def join (point : CodePoint) : List CodePoint → List CodePoint
  | [] => [point]
  | next :: rest =>
      if (0xd800 ≤ point.val ∧ point.val < 0xdc00) ∧
          (0xdc00 ≤ next.val ∧ next.val < 0xe000) then
        .ofNat _ (0x10000 + (point.val - 0xd800) * 0x400 + (next.val - 0xdc00)) :: rest
      else point :: next :: rest

def escaped? : Char → Option Char
  | '"' => some '"'
  | '\\' => some '\\'
  | '/' => some '/'
  | 'b' => some '\x08'
  | 'f' => some '\x0c'
  | 'n' => some '\n'
  | 'r' => some '\r'
  | 't' => some '\t'
  | _ => none

/-- The code points of a string after its opening quote.  `opening` is the text from that
quote on, where an unterminated string is reported. -/
def readPoints (opening : List Char) :
    List Char → Except Failure (List CodePoint × List Char)
  | [] => fail .unterminatedString opening
  | '"' :: rest => .ok ([], rest)
  | '\\' :: [] => fail .unterminatedString opening
  | '\\' :: 'u' :: a :: b :: c :: d :: rest =>
      match Text.Hex.read? [a, b, c, d], rest with
      | some unit, _ :: _ =>
          (readPoints opening rest).map fun read => (join (.ofNat _ unit) read.1, read.2)
      | _, _ => fail .invalidUnitEscape ('u' :: a :: b :: c :: d :: rest)
  | '\\' :: 'u' :: rest => fail .invalidUnitEscape ('u' :: rest)
  | '\\' :: letter :: rest =>
      match escaped? letter with
      | some c =>
          (readPoints opening rest).map fun read => (join c read.1, read.2)
      | none => fail .invalidEscape ('\\' :: letter :: rest)
  | c :: rest =>
      if c.toNat < 0x20 then fail .controlCharacter (c :: rest)
      else (readPoints opening rest).map fun read => (join c read.1, read.2)

def readString (opening rest : List Char) : Except Failure (Json × List Char) :=
  (readPoints opening rest).map fun read => (.string ⟨read.1⟩, read.2)

end Playthrough.Json.Reader
