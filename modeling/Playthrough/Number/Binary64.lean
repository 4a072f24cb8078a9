/-!
# Binary numbers of 64 bits

The numbers that a decimal numeral with a fraction or an exponent stands for: the
nearest of the binary numbers with 53 significant bits, a tie going to the even
neighbour, and infinity beyond the largest.  All arithmetic is exact.
-/

namespace Playthrough.Number

/-- A finite number has the magnitude `mantissa * 2 ^ exponent`. -/
inductive Binary64 where
  | nan
  | infinity (negative : Bool)
  | finite (negative : Bool) (mantissa : Nat) (exponent : Int)
  deriving DecidableEq, Repr

/-- The natural number nearest to a quotient; a tie goes to the even one. -/
def roundQuotient (num den : Nat) : Nat :=
  let quotient := num / den
  let twice := 2 * (num % den)
  if twice < den then quotient
  else if twice = den then quotient + quotient % 2
  else quotient + 1

namespace Binary64

def inUnits (num den : Nat) (exponent : Int) : Nat × Nat :=
  if exponent < 0 then (num <<< (-exponent).toNat, den)
  else (num, den <<< exponent.toNat)

def ofQuotient (negative : Bool) (num den : Nat) : Binary64 :=
  let least : Int := max ((num.log2 : Int) - (den.log2 : Int) - 53) (-1074)
  let scaled := inUnits num den least
  let exponent := if scaled.1 < scaled.2 <<< 53 then least else least + 1
  let scaled := inUnits num den exponent
  let mantissa := roundQuotient scaled.1 scaled.2
  if 971 < exponent ∨ (exponent = 971 ∧ 1 <<< 53 ≤ mantissa) then infinity negative
  else finite negative mantissa exponent

/-- The number nearest to `digits * 10 ^ exponent`.  Exponents that leave the range of
finite numbers on either side need no arithmetic. -/
def ofDecimal (negative : Bool) (digits : Nat) (exponent : Int) : Binary64 :=
  if digits = 0 then finite negative 0 0
  else if 400 < exponent then infinity negative
  else if (digits.log2 : Int) + 3 * exponent < -1100 then finite negative 0 0
  else if exponent < 0 then ofQuotient negative digits (Nat.pow 10 (-exponent).toNat)
  else ofQuotient negative (digits * Nat.pow 10 exponent.toNat) 1

def isFinite : Binary64 → Bool
  | finite .. => true
  | _ => false

def toInt? : Binary64 → Option Int
  | finite negative mantissa exponent =>
      let magnitude? : Option Nat :=
        if 0 ≤ exponent then some (mantissa <<< exponent.toNat)
        else if mantissa % (1 <<< (-exponent).toNat) = 0 then
          some (mantissa >>> (-exponent).toNat)
        else none
      magnitude?.map fun n => if negative then -(n : Int) else n
  | _ => none

/-! ## Exact decimal expansion -/

/-- The magnitude of a finite number: the digits before the point, and those after it. -/
def expansion (mantissa : Nat) (exponent : Int) : List Char × List Char :=
  if 0 ≤ exponent then (Nat.toDigits 10 (mantissa <<< exponent.toNat), ['0'])
  else
    let places := (-exponent).toNat
    let fraction := Nat.toDigits 10 (mantissa % (1 <<< places) * Nat.pow 5 places)
    (Nat.toDigits 10 (mantissa >>> places),
      List.replicate (places - fraction.length) '0' ++ fraction)

/-- The whole of a finite number's decimal expansion, or the name of another number. -/
def text : Binary64 → List Char
  | nan => "NaN".toList
  | infinity negative => (if negative then "-Infinity" else "Infinity").toList
  | finite negative mantissa exponent =>
      let parts := expansion mantissa exponent
      (if negative then ['-'] else []) ++ parts.1 ++ '.' :: parts.2

end Binary64

end Playthrough.Number
