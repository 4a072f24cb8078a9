import Playthrough.Graph.Dot
import Playthrough.Service.Message

/-!
# The graph service

A service shows the graph of one story, or of none.  The graph always belongs to the
current configuration.  A loading indicator is set whenever the graph has been built,
and cleared by the renderer.  Graphs of other stories are built on request and leave
the service as it is.
-/

namespace Playthrough

namespace Service

structure Show where
  story : Story
  graph : Graph
  loading : Bool
  deriving DecidableEq, Repr

end Service

structure Service where
  config : Config
  current : Option Service.Show
  deriving DecidableEq, Repr

namespace Service

/-! ## Creation -/

inductive Source where
  | nothing
  | story (story : Story)
  | file (bytes : List UInt8)
  deriving DecidableEq, Repr

inductive Refusal where
  | file (fault : FileFault)
  | inconsistent (fault : Fault)
  | stopped (stop : Stop (List Unplaced))
  deriving DecidableEq, Repr

def Source.story? (root : Text) : Source → Except Refusal (Option Story)
  | nothing => .ok none
  | story given =>
      match given.validate root with
      | .ok () => .ok (some given)
      | .error fault => .error (.inconsistent fault)
  | file bytes => ((Story.loadFile bytes root).map some).mapError .file

def create (source : Source) (config : Config) : Except Refusal Service :=
  match source.story? config.root with
  | .error refusal => .error refusal
  | .ok none => .ok ⟨config, none⟩
  | .ok (some story) =>
      match story.graph config with
      | .ok graph => .ok ⟨config, some ⟨story, graph, true⟩⟩
      | .error stop => .error (.stopped stop)

/-! ## Requests -/

def status (service : Service) : Status :=
  match service.current with
  | none => ⟨false, none, 0, 0, 0⟩
  | some current =>
      { loading := current.loading
        story := some current.story.title
        nodes := current.graph.nodes.length
        edges := current.graph.edges.length
        completedPaths := current.graph.completedPaths.length }

/-- The name of a story's graph: its title, or a stand-in for an empty one. -/
def graphName (story : Story) : Text := if story.title = "" then "story" else story.title

/-- The answer to a posted build.  It depends on the configuration alone. -/
def buildPosted (config : Config) (request : BuildRequest) : Response :=
  match Story.load request.story config.root with
  | .error fault => .refused fault
  | .ok story =>
      match story.graph (request.adjust config) with
      | .ok graph => .graph graph
      | .error stop => .stopped stop

/-- Take a new configuration.  It is refused if its root is no root for the story. -/
def replaceConfig (config : Config) (service : Service) : Service × Response :=
  match service.current with
  | none => ({ service with config := config }, .config config)
  | some current =>
      match current.story.validate config.root with
      | .error fault => (service, .refused (.inconsistent fault))
      | .ok () =>
          match current.story.graph config with
          | .ok graph => (⟨config, some ⟨current.story, graph, true⟩⟩, .config config)
          | .error stop => ({ service with config := config }, .stopped stop)

def handle (service : Service) : Request → Service × Response
  | .graph =>
      match service.current with
      | none => (service, .noStory)
      | some current => (service, .graph current.graph)
  | .dot =>
      match service.current with
      | none => (service, .noStory)
      | some current => (service, .dot (Dot.print current.graph (graphName current.story)))
  | .build body =>
      match BuildRequest.ofJson body with
      | .invalid issues => (service, .badBody issues)
      | .valid request => (service, buildPosted service.config request)
  | .readConfig => (service, .config service.config)
  | .replaceConfig body =>
      match Config.ofJson body with
      | .invalid issues => (service, .badBody issues)
      | .valid config => replaceConfig config service
  | .status => (service, .status service.status)
  | .renderComplete =>
      match service.current with
      | none => (service, .noStory)
      | some current => ({ service with current := some { current with loading := false } }, .rendered)

def handleAll (service : Service) : List Request → Service × List Response
  | [] => (service, [])
  | request :: requests =>
      let (next, response) := service.handle request
      let (last, responses) := next.handleAll requests
      (last, response :: responses)

end Service

end Playthrough
