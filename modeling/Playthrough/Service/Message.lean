import Playthrough.Catalog
import Playthrough.Schema.Graph
import Playthrough.Story.Graph

/-!
# Requests and responses

What a graph service can be asked, and what it answers.  Bodies of requests are
documents, and are read by the service.
-/

namespace Playthrough

/-- A posted story document, and the inclusion flag to build its graph with, unless it
is that of the current configuration. -/
structure BuildRequest where
  story : Json
  includeNonProgressing : Option Bool

namespace BuildRequest

def ofJson : Decoder BuildRequest := .record fun members =>
  BuildRequest.mk <$> Decoder.required .anyObject "story" members
    <*> Decoder.optional (.nullable .bool) none "include_non_progressing_rules" members

def toJson (request : BuildRequest) : Json := .object [
  ("story", request.story),
  ("include_non_progressing_rules",
    match request.includeNonProgressing with
    | none => .null
    | some flag => .bool flag)]

def adjust (request : BuildRequest) (config : Config) : Config :=
  match request.includeNonProgressing with
  | none => config
  | some flag => { config with includeNonProgressing := flag }

end BuildRequest

namespace Service

inductive Request where
  | graph
  | dot
  | build (body : Json)
  | readConfig
  | replaceConfig (body : Json)
  | status
  | renderComplete

structure Status where
  loading : Bool
  story : Option Text
  nodes : Nat
  edges : Nat
  completedPaths : Nat
  deriving DecidableEq, Repr

inductive Response where
  | graph (graph : Graph)
  | dot (text : Text)
  | config (config : Config)
  | status (status : Status)
  | rendered
  | noStory
  | badBody (issues : List Issue)
  | refused (fault : DocumentFault)
  | stopped (stop : Stop (List Unplaced))
  deriving DecidableEq, Repr

namespace Response

def code : Response → Nat
  | noStory => 404
  | badBody _ => 422
  | refused _ => 422
  | stopped _ => 500
  | _ => 200

/-- What is said about a request that was refused for a single reason. -/
def detail? : Response → Option Text
  | noStory => some "No story configured"
  | refused (.inconsistent fault) => some fault.message
  | _ => none

end Response

end Service

end Playthrough
