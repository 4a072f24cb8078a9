import Playthrough.Json.Basic

/-!
# Reading numerals

A numeral is read as far as it goes: a sign, digits without superfluous zeros, a
fraction and an exponent.  With one of the last two it names a binary number, and
otherwise an integer.
-/

namespace Playthrough.Json.Reader

def takeSign : List Char → Bool × List Char
  | '-' :: rest => (true, rest)
  | rest => (false, rest)

/-- The digits before a point: a single zero, or digits that start with another one. -/
def takeWhole? : List Char → Option (List Char × List Char)
  | '0' :: rest => some (['0'], rest)
  | c :: rest =>
      if c.isDigit then some (c :: rest.takeWhile Char.isDigit, rest.dropWhile Char.isDigit)
      else none
  | [] => none

def takeFraction? : List Char → Option (List Char × List Char)
  | '.' :: c :: rest =>
      if c.isDigit then some (c :: rest.takeWhile Char.isDigit, rest.dropWhile Char.isDigit)
      else none
  | _ => none

def takeExponentDigits? (negative : Bool) : List Char → Option (Int × List Char)
  | c :: rest =>
      if c.isDigit then
        let magnitude := Nat.ofDigitChars 10 (c :: rest.takeWhile Char.isDigit) 0
        some (if negative then -(magnitude : Int) else magnitude, rest.dropWhile Char.isDigit)
      else none
  | [] => none

def takeExponent? : List Char → Option (Int × List Char)
  | mark :: rest =>
      if mark = 'e' ∨ mark = 'E' then
        match rest with
        | '-' :: rest => takeExponentDigits? true rest
        | '+' :: rest => takeExponentDigits? false rest
        | rest => takeExponentDigits? false rest
      else none
  | [] => none

def signed (negative : Bool) (n : Nat) : Int := if negative then -(n : Int) else n

def readNumber? (cs : List Char) : Option (Json × List Char) :=
  let (negative, unsigned) := takeSign cs
  (takeWhole? unsigned).map fun (whole, rest) =>
    match takeFraction? rest with
    | some (fraction, rest) =>
        let (exponent, rest) := (takeExponent? rest).getD (0, rest)
        (.float (.ofDecimal negative (Nat.ofDigitChars 10 (whole ++ fraction) 0)
          (exponent - fraction.length)), rest)
    | none =>
        match takeExponent? rest with
        | some (exponent, rest) =>
            (.float (.ofDecimal negative (Nat.ofDigitChars 10 whole 0) exponent), rest)
        | none => (.int (signed negative (Nat.ofDigitChars 10 whole 0)), rest)

end Playthrough.Json.Reader
