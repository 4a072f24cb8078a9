import Playthrough.Json.Reader.Basic
import Playthrough.Schema.Story
import Playthrough.Story.Consistency
import Playthrough.Text.Newline
import Playthrough.Text.Utf8

/-!
# Loading stories

A story is loaded from a document or from the bytes of a file.  A document that is no
story is refused with all its issues; a story that is not consistent is refused with
its first fault.
-/

namespace Playthrough

inductive DocumentFault where
  | malformed (issues : List Issue)
  | inconsistent (fault : Fault)
  deriving DecidableEq, Repr

inductive FileFault where
  | undecodable (fault : Text.Utf8.Fault)
  | unreadable (fault : Json.ReadFault)
  | refused (fault : DocumentFault)
  deriving DecidableEq, Repr

namespace FileFault

def unreadableMessage (path : String) (fault : Json.ReadFault) : String :=
  path ++ ": invalid JSON: " ++ fault.message

end FileFault

namespace Story

def validate (story : Story) (root : Text) : Except Fault Unit :=
  match story.firstFault? root with
  | none => .ok ()
  | some fault => .error fault

def load (document : Json) (root : Text) : Except DocumentFault Story :=
  match Story.ofJson document with
  | .invalid issues => .error (.malformed issues)
  | .valid story =>
      match story.validate root with
      | .ok () => .ok story
      | .error fault => .error (.inconsistent fault)

def loadFile (bytes : List UInt8) (root : Text) : Except FileFault Story :=
  match Text.Utf8.decode bytes with
  | .error fault => .error (.undecodable fault)
  | .ok text =>
      match Json.read (Text.unifyLineEnds text) with
      | .error fault => .error (.unreadable fault)
      | .ok document => (load document root).mapError .refused

end Story

end Playthrough
