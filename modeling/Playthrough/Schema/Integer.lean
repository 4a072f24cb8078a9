import Playthrough.Json.Reader.Numeral
import Playthrough.Schema.Checked
import Playthrough.Text.Blank

/-!
# Integers in texts

A text names an integer if it comes down to an integer numeral of a document once its
spare parts are gone: blanks at both ends, a plus sign, zeros in front, single
underscores inside, and a fraction of zeros.
-/

namespace Playthrough.Decoder

open Json.Reader (takeSign takeWhole? signed)

/-! ## Plain numerals -/

/-- The most digits that the numeral of an integer has in a text. -/
def digitLimit : Nat := 4300

def numeralValue? (cs : List Char) : Option Int :=
  match takeWhole? (takeSign cs).2 with
  | some (digits, []) =>
      if digits.length ≤ digitLimit then
        some (signed (takeSign cs).1 (Nat.ofDigitChars 10 digits 0))
      else none
  | _ => none

/-- A numeral with too many digits stands in front, whatever follows it. -/
def startsOversized (cs : List Char) : Bool :=
  match takeWhole? (takeSign cs).2 with
  | some (digits, _) => digitLimit < digits.length
  | none => false

/-! ## Spare parts -/

/-- A number without the zeros in front and the underscores among them; one character
always stays. -/
def dropZeros (cs : List Char) : List Char :=
  match cs with
  | '0' :: _ =>
      match cs.dropWhile fun c => c == '0' || c == '_' with
      | [] => cs.drop (cs.length - 1)
      | rest => rest
  | _ => cs

/-- Nothing, or a point and one or more zeros. -/
def isZeroFraction : List Char → Bool
  | [] => true
  | '.' :: zero :: zeros => (zero :: zeros).all (· == '0')
  | _ => false

/-- Each underscore stands alone between two other characters, and the last character is
none.  `afterOther` says whether another character stands directly before. -/
def underscoresInside (afterOther : Bool) : List Char → Bool
  | [] => afterOther
  | c :: rest =>
      if c = '_' then afterOther && underscoresInside false rest
      else underscoresInside true rest

/-- A number that starts with a digit, without its spare parts.  What follows zeros in
front may have a minus sign of its own. -/
def withoutSpares? (cs : List Char) : Option (List Char) :=
  let whole := dropZeros (cs.takeWhile (· != '.'))
  if (cs.head?.any Char.isDigit && isZeroFraction (cs.dropWhile (· != '.')) &&
      underscoresInside false whole) = true then
    some (whole.filter (· != '_'))
  else none

def looseValue? (cs : List Char) : Option Int :=
  match cs with
  | '-' :: rest => (withoutSpares? rest).bind fun digits => numeralValue? ('-' :: digits)
  | '+' :: rest => (withoutSpares? rest).bind numeralValue?
  | _ => (withoutSpares? cs).bind numeralValue?

/-- The integer that a text names.  Too many digits are an issue of their own only where
the text starts with them. -/
def intOfChars (cs : List Char) : Checked Int :=
  if startsOversized cs then .issue .oversizedInt
  else
    match looseValue? (Text.trim cs) with
    | some n => .valid n
    | none => .issue .unreadableInt

end Playthrough.Decoder
