import Playthrough.Text.Hex
import Playthrough.Text.Printable

/-!
# Quoted text

How messages show a text that may hold anything.  The text stands between single
quotes, or between double quotes if it holds a single quote and no double quote.  The
enclosing quote and the backslash are escaped, and so is every code point that does
not print.
-/

namespace Playthrough.Text.Quoted

def delimiter (text : Text) : CodePoint :=
  if .ofChar '\'' ∈ text.points ∧ .ofChar '"' ∉ text.points then '"' else '\''

/-- A code point that does not print, by the shortest of the three numeric forms. -/
def escapeCode (point : CodePoint) : List Char :=
  if point.val < 0x100 then '\\' :: 'x' :: Hex.digits 2 point.val
  else if point.val < 0x10000 then '\\' :: 'u' :: Hex.digits 4 point.val
  else '\\' :: 'U' :: Hex.digits 8 point.val

def escape (quote point : CodePoint) : List CodePoint :=
  if point = quote ∨ point = '\\' then ['\\', point]
  else if point = '\n' then ['\\', 'n']
  else if point = '\r' then ['\\', 'r']
  else if point = '\t' then ['\\', 't']
  else if isPrintable point then [point]
  else (escapeCode point).map .ofChar

def quote (text : Text) : Text :=
  let mark := delimiter text
  ⟨mark :: text.points.flatMap (escape mark) ++ [mark]⟩

end Playthrough.Text.Quoted
