import Playthrough.Json.Basic
import Playthrough.Text.Hex

/-!
# Writing documents

One line, a blank after each comma and colon.  Characters beyond the printable ASCII
range are either written as they are or escaped by their UTF-16 units; controls are
always escaped.
-/

namespace Playthrough.Json

inductive Charset where
  | ascii
  | unicode
  deriving DecidableEq, Repr

def escapeUnit (unit : Nat) : List Char := '\\' :: 'u' :: Text.Hex.digits 4 unit

/-- A character by one unit, or by a pair of surrogates. -/
def escapeUnits (c : Char) : List Char :=
  if c.toNat < 0x10000 then escapeUnit c.toNat
  else
    escapeUnit (0xd800 + (c.toNat - 0x10000) / 0x400) ++
      escapeUnit (0xdc00 + (c.toNat - 0x10000) % 0x400)

def printChar (charset : Charset) (c : Char) : List Char :=
  if c = '"' then ['\\', '"']
  else if c = '\\' then ['\\', '\\']
  else if c = '\n' then ['\\', 'n']
  else if c = '\r' then ['\\', 'r']
  else if c = '\t' then ['\\', 't']
  else if c.toNat = 0x08 then ['\\', 'b']
  else if c.toNat = 0x0c then ['\\', 'f']
  else if c.toNat < 0x20 then escapeUnit c.toNat
  else if charset = .ascii ∧ 0x7e < c.toNat then escapeUnits c
  else [c]

/-- A surrogate has no other form than the escape of its unit. -/
def printPoint (charset : Charset) (point : CodePoint) : List Char :=
  match point.char? with
  | some c => printChar charset c
  | none => escapeUnit point.val

def printString (charset : Charset) (text : Text) : List Char :=
  '"' :: text.points.flatMap (printPoint charset) ++ ['"']

def printInt (n : Int) : List Char :=
  (if n < 0 then ['-'] else []) ++ Nat.toDigits 10 n.natAbs

mutual

def print (charset : Charset) : Json → List Char
  | .null => ['n', 'u', 'l', 'l']
  | .bool true => ['t', 'r', 'u', 'e']
  | .bool false => ['f', 'a', 'l', 's', 'e']
  | .int n => printInt n
  | .float x => x.text
  | .string text => printString charset text
  | .array [] => ['[', ']']
  | .array (element :: elements) =>
      '[' :: print charset element ++ printElements charset elements
  | .object [] => ['{', '}']
  | .object ((key, value) :: members) =>
      '{' :: printString charset key ++ ':' :: ' ' :: print charset value ++
        printMembers charset members

/-- What follows an element of an array, up to the closing bracket. -/
def printElements (charset : Charset) : List Json → List Char
  | [] => [']']
  | element :: elements =>
      ',' :: ' ' :: print charset element ++ printElements charset elements

/-- What follows a member of an object, up to the closing brace. -/
def printMembers (charset : Charset) : List (Text × Json) → List Char
  | [] => ['}']
  | (key, value) :: members =>
      ',' :: ' ' :: printString charset key ++ ':' :: ' ' :: print charset value ++
        printMembers charset members

end

end Playthrough.Json
