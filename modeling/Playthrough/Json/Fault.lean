import Playthrough.Json.Basic

/-!
# Faults in JSON texts

A reader stops at the first fault.  It remembers the characters from the fault on, and
the place of the fault in the text follows from how many they are.
-/

namespace Playthrough.Json

inductive SyntaxFault where
  | byteOrderMark
  | expectedValue
  | expectedName
  | expectedColon
  | expectedComma
  | unterminatedString
  | controlCharacter
  | invalidEscape
  | invalidUnitEscape
  | extraData
  deriving DecidableEq, Repr

namespace SyntaxFault

def message : SyntaxFault → String
  | byteOrderMark => "Unexpected UTF-8 BOM (decode using utf-8-sig)"
  | expectedValue => "Expecting value"
  | expectedName => "Expecting property name enclosed in double quotes"
  | expectedColon => "Expecting ':' delimiter"
  | expectedComma => "Expecting ',' delimiter"
  | unterminatedString => "Unterminated string starting at"
  | controlCharacter => "Invalid control character at"
  | invalidEscape => "Invalid \\escape"
  | invalidUnitEscape => "Invalid \\uXXXX escape"
  | extraData => "Extra data"

end SyntaxFault

namespace Reader

/-- A fault, and the characters that were left when it was met. -/
structure Failure where
  fault : SyntaxFault
  rest : List Char
  deriving DecidableEq, Repr

def fail {α : Type} (fault : SyntaxFault) (rest : List Char) : Except Failure (α × List Char) :=
  .error ⟨fault, rest⟩

end Reader

/-! ## Places of faults -/

/-- A fault with its place: the count of characters before it, and its line and
column, which count from one. -/
structure ReadFault where
  fault : SyntaxFault
  offset : Nat
  line : Nat
  column : Nat
  deriving DecidableEq, Repr

namespace ReadFault

def locate (text : List Char) (failure : Reader.Failure) : ReadFault :=
  let offset := text.length - failure.rest.length
  let before := text.take offset
  { fault := failure.fault
    offset := offset
    line := before.count '\n' + 1
    column := (before.reverse.takeWhile (· != '\n')).length + 1 }

def message (fault : ReadFault) : String :=
  fault.fault.message ++ ": line " ++ toString fault.line ++ " column " ++
    toString fault.column ++ " (char " ++ toString fault.offset ++ ")"

end ReadFault

end Playthrough.Json
