/-!
# Line ends

A carriage return, with or without a line feed after it, ends a line just as a line
feed does.
-/

namespace Playthrough.Text

def unifyLineEnds : List Char → List Char
  | [] => []
  | '\r' :: '\n' :: rest => '\n' :: unifyLineEnds rest
  | c :: rest => (if c = '\r' then '\n' else c) :: unifyLineEnds rest

end Playthrough.Text
