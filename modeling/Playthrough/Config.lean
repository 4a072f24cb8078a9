import Playthrough.Text.Basic

/-!
# Configuration

Which steps enter the graph, how edges are colored, and the name of the root: the
node that stands before any rule has fired.
-/

namespace Playthrough

structure Config where
  includeNonProgressing : Bool := false
  defaultColor : Text := "black"
  highlightColor : Text := "red"
  root : Text := "Begining"
  deriving DecidableEq, Repr

end Playthrough
