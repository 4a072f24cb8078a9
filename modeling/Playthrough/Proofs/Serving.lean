import Playthrough.Proofs.Endings
import Playthrough.Service.Basic

/-!
# Services over time

What a service holds after any requests is read off what was exchanged: the story it was
created with, the configuration it took over last, the graph of that story under that
configuration, and whether the renderer has reported since.  The only valid configuration
that a service with a story refuses is one whose root is the summary of a rule.
-/

namespace Playthrough.Service

/-! ## What was exchanged -/

structure Exchange where
  request : Request
  response : Response

namespace Exchange

def accepted? (exchange : Exchange) : Option Config :=
  match exchange.request with
  | .replaceConfig body =>
      match Config.ofJson body with
      | .valid config => if exchange.response.code = 200 then some config else none
      | .invalid _ => none
  | _ => none

def reports (exchange : Exchange) : Bool :=
  match exchange.request with
  | .renderComplete => exchange.response.code == 200
  | _ => false

end Exchange

def log (service : Service) (requests : List Request) : List Exchange :=
  List.zipWith Exchange.mk requests (service.handleAll requests).2

def lastConfig (first : Config) (past : List Exchange) : Config :=
  (past.filterMap Exchange.accepted?).getLast?.getD first

/-- The renderer has reported since a configuration was taken over last. -/
def renderedSince (past : List Exchange) : Bool :=
  (past.reverse.takeWhile fun exchange => exchange.accepted?.isNone).any Exchange.reports

theorem lastConfig_snoc (first : Config) (past : List Exchange) (exchange : Exchange) :
    lastConfig first (past ++ [exchange]) =
      exchange.accepted?.getD (lastConfig first past) := by
  unfold lastConfig
  cases h : exchange.accepted? <;> simp [h]

theorem renderedSince_snoc (past : List Exchange) (exchange : Exchange) :
    renderedSince (past ++ [exchange]) =
      (exchange.accepted?.isNone && (exchange.reports || renderedSince past)) := by
  unfold renderedSince
  cases h : exchange.accepted? <;> simp [h]

/-- Only a valid configuration and a report of the renderer can change a service. -/
theorem handle_cases (service : Service) (request : Request) :
    ((service.handle request).1 = service ∧
      ∀ response, Exchange.accepted? ⟨request, response⟩ = none ∧
        Exchange.reports ⟨request, response⟩ = false) ∨
    (∃ body config, request = .replaceConfig body ∧ Config.ofJson body = .valid config) ∨
    request = .renderComplete := by
  cases request with
  | graph =>
      refine .inl ⟨?_, fun _ => ⟨rfl, rfl⟩⟩
      unfold handle
      cases service.current <;> rfl
  | dot =>
      refine .inl ⟨?_, fun _ => ⟨rfl, rfl⟩⟩
      unfold handle
      cases service.current <;> rfl
  | build body =>
      refine .inl ⟨?_, fun _ => ⟨rfl, rfl⟩⟩
      simp only [handle]
      cases BuildRequest.ofJson body <;> rfl
  | readConfig => exact .inl ⟨rfl, fun _ => ⟨rfl, rfl⟩⟩
  | status => exact .inl ⟨rfl, fun _ => ⟨rfl, rfl⟩⟩
  | replaceConfig body =>
      cases hbody : Config.ofJson body with
      | invalid issues =>
          refine .inl ⟨by simp only [handle, hbody], fun response => ⟨?_, rfl⟩⟩
          simp only [Exchange.accepted?, hbody]
      | valid config => exact .inr (.inl ⟨body, config, rfl, hbody⟩)
  | renderComplete => exact .inr (.inr rfl)

/-- What each request keeps, all requests keep. -/
theorem handleAll_keeps {P : List Exchange → Service → Prop}
    (hstep : ∀ past service request, P past service →
      P (past ++ [⟨request, (service.handle request).2⟩]) (service.handle request).1)
    (requests : List Request) {past : List Exchange} {service : Service}
    (h : P past service) :
    P (past ++ service.log requests) (service.handleAll requests).1 := by
  induction requests generalizing past service with
  | nil => simpa [log, handleAll] using h
  | cons request requests ih =>
      have hrest := ih (hstep past service request h)
      rw [List.append_assoc] at hrest
      exact hrest

/-! ## With a story -/

/-- The service shows the story under the last configuration, and is loading until the
renderer reports. -/
structure Shows (story : Story) (first : Config) (past : List Exchange) (service : Service) :
    Prop where
  config_eq : service.config = lastConfig first past
  root_free : service.config.root ∉ story.summaries
  current_eq : ∃ graph, story.graph service.config = .ok graph ∧
    service.current = some ⟨story, graph, !renderedSince past⟩

/-- Of all valid configurations, those that make a rule the root are refused. -/
structure Guards (story : Story) (service : Service) : Prop where
  refused_iff : ∀ body config, Config.ofJson body = .valid config →
    ((service.handle (.replaceConfig body)).2.code = 422 ↔ config.root ∈ story.summaries)
  refused : ∀ body config, Config.ofJson body = .valid config → config.root ∈ story.summaries →
    (service.handle (.replaceConfig body)).1 = service ∧
      (service.handle (.replaceConfig body)).2.detail? =
        some ("Rule summary " ++ Text.Quoted.quote config.root ++
          " is reserved for the graph root")
  accepted : ∀ body config, Config.ofJson body = .valid config → config.root ∉ story.summaries →
    (service.handle (.replaceConfig body)).2 = .config config

namespace Shows

variable {story : Story} {root : Text} {first : Config} {past : List Exchange}
  {service : Service}

theorem quiet (h : Shows story first past service) {exchange : Exchange}
    (haccepted : exchange.accepted? = none) (hreports : exchange.reports = false) :
    Shows story first (past ++ [exchange]) service where
  config_eq := by
    rw [lastConfig_snoc, haccepted]
    exact h.config_eq
  root_free := h.root_free
  current_eq := by
    rw [renderedSince_snoc, haccepted, hreports]
    exact h.current_eq

theorem handle_replaceConfig (h : Shows story first past service)
    (hstory : story.Consistent root) {body : Json} {config : Config}
    (hbody : Config.ofJson body = .valid config) {graph : Graph}
    (hgraph : story.graph config = .ok graph) :
    service.handle (.replaceConfig body) =
      if config.root ∈ story.summaries then
        (service, .refused (.inconsistent (.reservedSummary config.root)))
      else (⟨config, some ⟨story, graph, true⟩⟩, .config config) := by
  obtain ⟨shown, -, hcurrent⟩ := h.current_eq
  by_cases hroot : config.root ∈ story.summaries
  · have hvalidate : story.validate config.root = .error (.reservedSummary config.root) := by
      rw [hstory.validate_eq, if_pos hroot]
    simp only [handle, hbody, replaceConfig, hcurrent, hvalidate, if_pos hroot]
  · have hvalidate : story.validate config.root = .ok () := by
      rw [hstory.validate_eq, if_neg hroot]
    simp only [handle, hbody, replaceConfig, hcurrent, hvalidate, hgraph, if_neg hroot]

theorem guards (h : Shows story first past service) (hstory : story.Consistent root) :
    service.Guards story := by
  have hput : ∀ body config, Config.ofJson body = .valid config → ∃ graph,
      service.handle (.replaceConfig body) =
        if config.root ∈ story.summaries then
          (service, .refused (.inconsistent (.reservedSummary config.root)))
        else (⟨config, some ⟨story, graph, true⟩⟩, .config config) := by
    intro body config hbody
    obtain ⟨graph, hgraph⟩ := hstory.exists_graph config
    exact ⟨graph, h.handle_replaceConfig hstory hbody hgraph⟩
  constructor
  · intro body config hbody
    obtain ⟨graph, hhandle⟩ := hput body config hbody
    rw [hhandle]
    split <;> simp [Response.code, *]
  · intro body config hbody hroot
    obtain ⟨graph, hhandle⟩ := hput body config hbody
    rw [hhandle, if_pos hroot]
    exact ⟨rfl, rfl⟩
  · intro body config hbody hroot
    obtain ⟨graph, hhandle⟩ := hput body config hbody
    rw [hhandle, if_neg hroot]

theorem handle (h : Shows story first past service) (hstory : story.Consistent root)
    (request : Request) :
    Shows story first (past ++ [⟨request, (service.handle request).2⟩])
      (service.handle request).1 := by
  rcases service.handle_cases request with ⟨hsame, hquiet⟩ | ⟨body, config, rfl, hbody⟩ | rfl
  · rw [hsame]
    exact h.quiet (hquiet _).1 (hquiet _).2
  · obtain ⟨graph, hgraph⟩ := hstory.exists_graph config
    rw [h.handle_replaceConfig hstory hbody hgraph]
    split
    · exact h.quiet (by simp [Exchange.accepted?, hbody, Response.code]) rfl
    · next hroot =>
        have haccepted : Exchange.accepted? ⟨.replaceConfig body, .config config⟩ =
            some config := by
          simp [Exchange.accepted?, hbody, Response.code]
        refine ⟨?_, hroot, graph, hgraph, ?_⟩
        · rw [lastConfig_snoc, haccepted]
          rfl
        · rw [renderedSince_snoc, haccepted]
          rfl
  · obtain ⟨graph, hgraph, hcurrent⟩ := h.current_eq
    simp only [Service.handle, hcurrent]
    refine ⟨?_, h.root_free, graph, hgraph, ?_⟩
    · rw [lastConfig_snoc]
      exact h.config_eq
    · rw [renderedSince_snoc]
      rfl

/-- What is stored can be asked for. -/
theorem answers (h : Shows story first past service) :
    ∃ graph, story.graph (lastConfig first past) = .ok graph ∧
      (service.handle .readConfig).2 = .config (lastConfig first past) ∧
      (service.handle .graph).2 = .graph graph ∧
      (service.handle .dot).2 = .dot (Dot.print graph (graphName story)) ∧
      (service.handle .status).2 = .status
        { loading := !renderedSince past
          story := some story.title
          nodes := graph.nodes.length
          edges := graph.edges.length
          completedPaths := graph.completedPaths.length } := by
  obtain ⟨graph, hgraph, hcurrent⟩ := h.current_eq
  rw [h.config_eq] at hgraph
  refine ⟨graph, hgraph, ?_, ?_, ?_, ?_⟩
  · rw [Service.handle, h.config_eq]
  · simp only [Service.handle, hcurrent]
  · simp only [Service.handle, hcurrent]
  · simp only [Service.handle, status, hcurrent]

end Shows

/-! ## Without a story -/

/-- The service has nothing to show, and takes over every valid configuration. -/
structure Bare (first : Config) (past : List Exchange) (service : Service) : Prop where
  config_eq : service.config = lastConfig first past
  current_eq : service.current = none
  missing : ∀ request, request = .graph ∨ request = .dot ∨ request = .renderComplete →
    (service.handle request).2.code = 404 ∧
      (service.handle request).2.detail? = some "No story configured"
  accepted : ∀ body config, Config.ofJson body = .valid config →
    (service.handle (.replaceConfig body)).2 = .config config
  idle : service.status.loading = false

namespace Bare

variable {first : Config} {past : List Exchange} {service : Service}

theorem of_current (hconfig : service.config = lastConfig first past)
    (hcurrent : service.current = none) : Bare first past service where
  config_eq := hconfig
  current_eq := hcurrent
  missing := by
    rintro request (rfl | rfl | rfl) <;> simp only [handle, hcurrent] <;> exact ⟨rfl, rfl⟩
  accepted body config hbody := by simp only [handle, hbody, replaceConfig, hcurrent]
  idle := by simp only [status, hcurrent]

theorem handle (h : Bare first past service) (request : Request) :
    Bare first (past ++ [⟨request, (service.handle request).2⟩])
      (service.handle request).1 := by
  have hcurrent := h.current_eq
  rcases service.handle_cases request with ⟨hsame, hquiet⟩ | ⟨body, config, rfl, hbody⟩ | rfl
  · rw [hsame]
    refine of_current ?_ hcurrent
    rw [lastConfig_snoc, (hquiet _).1]
    exact h.config_eq
  · simp only [Service.handle, hbody, replaceConfig, hcurrent]
    refine of_current ?_ rfl
    rw [lastConfig_snoc]
    simp [Exchange.accepted?, hbody, Response.code]
  · simp only [Service.handle, hcurrent]
    refine of_current ?_ hcurrent
    rw [lastConfig_snoc]
    exact h.config_eq

theorem answers (h : Bare first past service) :
    (service.handle .readConfig).2 = .config (lastConfig first past) ∧
      (service.handle .status).2 = .status ⟨false, none, 0, 0, 0⟩ := by
  constructor
  · rw [Service.handle, h.config_eq]
  · simp only [Service.handle, status, h.current_eq]

end Bare

/-! ## Whole conversations -/

theorem Source.consistent_of_story? {source : Source} {root : Text} {story : Story}
    (h : source.story? root = .ok (some story)) : story.Consistent root := by
  cases source with
  | nothing => cases h
  | story given =>
      unfold Source.story? at h
      cases hvalidate : given.validate root with
      | error fault => simp [hvalidate] at h
      | ok _ =>
          simp only [hvalidate, Except.ok.injEq, Option.some.injEq] at h
          subst h
          exact Story.validate_eq_ok_iff.1 hvalidate
  | file bytes =>
      unfold Source.story? at h
      cases hload : Story.loadFile bytes root with
      | error fault => simp [hload, Except.map, Except.mapError] at h
      | ok loaded =>
          simp only [hload, Except.map, Except.mapError, Except.ok.injEq,
            Option.some.injEq] at h
          subst h
          exact Story.consistent_of_loadFile hload

theorem create_eq_ok {source : Source} {config : Config} {service : Service}
    (h : create source config = .ok service) :
    (∃ story, source.story? config.root = .ok (some story) ∧ Shows story config [] service) ∨
    (source.story? config.root = .ok none ∧ Bare config [] service) := by
  unfold create at h
  cases hsource : source.story? config.root with
  | error refusal => simp [hsource] at h
  | ok given =>
      cases given with
      | none =>
          simp only [hsource, Except.ok.injEq] at h
          subst h
          exact .inr ⟨rfl, Bare.of_current rfl rfl⟩
      | some story =>
          have hstory := Source.consistent_of_story? hsource
          obtain ⟨graph, hgraph⟩ := hstory.exists_graph config
          simp only [hsource, hgraph, Except.ok.injEq] at h
          subst h
          exact .inl ⟨story, rfl, rfl, hstory.root_free, graph, hgraph, rfl⟩

/-- Whatever a service has been asked since it was created. -/
theorem create_serves (source : Source) (config : Config) (service : Service)
    (h : create source config = .ok service) (requests : List Request) :
    (∃ story, source.story? config.root = .ok (some story) ∧
      Shows story config (service.log requests) (service.handleAll requests).1 ∧
      Guards story (service.handleAll requests).1) ∨
    (source.story? config.root = .ok none ∧
      Bare config (service.log requests) (service.handleAll requests).1) := by
  rcases create_eq_ok h with ⟨story, hsource, hshows⟩ | ⟨hsource, hbare⟩
  · have hstory := Source.consistent_of_story? hsource
    have hlast := handleAll_keeps
      (fun _ _ request hpast => hpast.handle hstory request) requests hshows
    exact .inl ⟨story, hsource, hlast, hlast.guards hstory⟩
  · have hlast := handleAll_keeps (fun _ _ request hpast => hpast.handle request) requests hbare
    exact .inr ⟨hsource, hlast⟩

/-- The renderer reports, a root that names a rule is refused, and another one is taken. -/
def umbrellaRequests : List Request := [
  .renderComplete,
  .replaceConfig (.object [("root_rule_id", .string "GoOut")]),
  .replaceConfig (.object [("root_rule_id", .string "Start")]),
  .graph]

theorem umbrella_serves :
    ∃ service, create (.story Story.umbrella) {} = .ok service ∧
      Shows Story.umbrella {} (service.log umbrellaRequests)
        (service.handleAll umbrellaRequests).1 ∧
      Guards Story.umbrella (service.handleAll umbrellaRequests).1 ∧
      (service.handleAll umbrellaRequests).2.map Response.code = [200, 422, 200, 200] ∧
      ∃ graph, Story.umbrella.graph { root := "Start" } = .ok graph ∧
        ((service.handleAll umbrellaRequests).1.handle .readConfig).2 =
          .config { root := "Start" } ∧
        ((service.handleAll umbrellaRequests).1.handle .graph).2 = .graph graph ∧
        ((service.handleAll umbrellaRequests).1.handle .status).2 = .status
          { loading := true
            story := some "Umbrella"
            nodes := graph.nodes.length
            edges := graph.edges.length
            completedPaths := graph.completedPaths.length } := by
  obtain ⟨service, hcreate, hcodes, hconfig, hrendered⟩ : ∃ service,
      create (.story Story.umbrella) {} = .ok service ∧
      (service.handleAll umbrellaRequests).2.map Response.code = [200, 422, 200, 200] ∧
      lastConfig {} (service.log umbrellaRequests) = { root := "Start" } ∧
      renderedSince (service.log umbrellaRequests) = false :=
    ⟨_, rfl, by decide, by decide, by decide⟩
  have hgiven : (Source.story Story.umbrella).story? "Begining" =
      .ok (some Story.umbrella) := rfl
  rcases create_serves (.story Story.umbrella) {} service hcreate umbrellaRequests with
    ⟨story, hsource, hshows, hguards⟩ | ⟨hsource, -⟩
  · cases hgiven.symm.trans hsource
    obtain ⟨graph, hgraph, hread, hshown, -, hstatus⟩ := hshows.answers
    rw [hconfig] at hgraph hread
    rw [hrendered] at hstatus
    exact ⟨service, hcreate, hshows, hguards, hcodes, graph, hgraph, hread, hshown, hstatus⟩
  · cases hgiven.symm.trans hsource

end Playthrough.Service
