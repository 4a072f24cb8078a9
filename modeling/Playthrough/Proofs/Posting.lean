import Playthrough.Proofs.Endings
import Playthrough.Proofs.Leaves
import Playthrough.Service.Basic

/-!
# Posted stories

A posted build is answered as a service would answer that was created with the posted story,
under the current configuration and the flag of the request.  A document that cannot be
loaded is refused with its fault.  The service itself goes on as if nothing had been posted.
-/

namespace Playthrough.Service

/-! ## Conversations -/

theorem handleAll_append (service : Service) (first second : List Request) :
    service.handleAll (first ++ second) =
      (((service.handleAll first).1.handleAll second).1,
        (service.handleAll first).2 ++ ((service.handleAll first).1.handleAll second).2) := by
  induction first generalizing service with
  | nil => rfl
  | cons request first ih =>
      simp only [List.cons_append, handleAll, ih]

theorem length_handleAll (service : Service) (requests : List Request) :
    (service.handleAll requests).2.length = requests.length := by
  induction requests generalizing service with
  | nil => rfl
  | cons request requests ih => exact congrArg (· + 1) (ih _)

theorem handle_build (service : Service) (body : Json) :
    (service.handle (.build body)).1 = service := by
  simp only [handle]
  cases BuildRequest.ofJson body <;> rfl

/-! ## The answer to a posted build -/

/-- A posted build is refused for the faults of its document, and otherwise answered with
the graph that a service of its own would show. -/
structure ShowsPosted (config : Config) (request : BuildRequest) (answer : Response) :
    Prop where
  refused_iff : ∀ fault, answer = .refused fault ↔
    Story.load request.story config.root = .error fault
  code_iff : answer.code = 422 ↔ ∃ fault, Story.load request.story config.root = .error fault
  shown : ∀ story, Story.load request.story config.root = .ok story → ∃ fresh graph,
    create (.story story)
        (config.flavored (request.includeNonProgressing.getD config.includeNonProgressing)) =
      .ok fresh ∧
    (fresh.handle .graph).2 = .graph graph ∧ answer = .graph graph

theorem adjust_eq_flavored (request : BuildRequest) (config : Config) :
    request.adjust config =
      config.flavored (request.includeNonProgressing.getD config.includeNonProgressing) := by
  unfold BuildRequest.adjust
  cases request.includeNonProgressing <;> rfl

theorem create_of_consistent {story : Story} {config : Config} {graph : Graph}
    (h : story.Consistent config.root) (hgraph : story.graph config = .ok graph) :
    create (.story story) config = .ok ⟨config, some ⟨story, graph, true⟩⟩ := by
  simp only [create, Source.story?, Story.validate_eq_ok_iff.2 h, hgraph]

theorem showsPosted_buildPosted (config : Config) (request : BuildRequest) :
    ShowsPosted config request (buildPosted config request) := by
  cases hload : Story.load request.story config.root with
  | error fault =>
      have hposted : buildPosted config request = .refused fault := by
        simp only [buildPosted, hload]
      rw [hposted]
      exact ⟨by simp [hload], by simp [hload, Response.code], by simp [hload]⟩
  | ok story =>
      -- the flag does not touch the root, so the story is accepted by its own service as well
      have hstory : story.Consistent (request.adjust config).root := by
        rw [adjust_eq_flavored]
        exact Story.consistent_of_load hload
      obtain ⟨graph, hgraph⟩ := hstory.exists_graph (request.adjust config)
      have hposted : buildPosted config request = .graph graph := by
        simp only [buildPosted, hload, hgraph]
      rw [hposted]
      refine ⟨by simp [hload], by simp [Response.code, hload], fun other hother => ?_⟩
      rw [hload, Except.ok.injEq] at hother
      subst hother
      rw [← adjust_eq_flavored]
      exact ⟨_, graph, create_of_consistent hstory hgraph, rfl, rfl⟩

/-- Whatever a service has come to, it answers a posted build as a service of its own for
the posted story would, and its other answers are those that it gives without the build. -/
theorem build_stands_apart (service : Service) (past later : List Request) (body : Json)
    (request : BuildRequest) (hbody : BuildRequest.ofJson body = .valid request) :
    ∃ before answer after,
      ShowsPosted (service.handleAll past).1.config request answer ∧
      (service.handleAll (past ++ .build body :: later)).2 = before ++ answer :: after ∧
      (service.handleAll (past ++ later)).2 = before ++ after ∧
      before.length = past.length := by
  refine ⟨(service.handleAll past).2, ((service.handleAll past).1.handle (.build body)).2,
    ((service.handleAll past).1.handleAll later).2, ?_, ?_, ?_, ?_⟩
  · simp only [handle, hbody]
    exact showsPosted_buildPosted _ request
  · rw [handleAll_append]
    simp only [handleAll, handle_build]
  · rw [handleAll_append]
  · exact length_handleAll service past

def umbrellaPast : List Request :=
  [.renderComplete, .replaceConfig (.object [("root_rule_id", .string "Start")])]

def umbrellaPost : BuildRequest := ⟨Story.umbrella.toJson, some true⟩

theorem umbrella_stands_apart :
    BuildRequest.ofJson umbrellaPost.toJson = .valid umbrellaPost ∧
    ∃ service, create (.story Story.umbrella) {} = .ok service ∧ ∃ before answer after,
      ShowsPosted (service.handleAll umbrellaPast).1.config umbrellaPost answer ∧
      (service.handleAll (umbrellaPast ++ .build umbrellaPost.toJson :: [.graph])).2 =
        before ++ answer :: after ∧
      (service.handleAll (umbrellaPast ++ [.graph])).2 = before ++ after ∧
      before.length = umbrellaPast.length ∧ ∃ graph, answer = .graph graph := by
  obtain ⟨service, hcreate, hload⟩ : ∃ service, create (.story Story.umbrella) {} = .ok service ∧
      Story.load umbrellaPost.story (service.handleAll umbrellaPast).1.config.root =
        .ok Story.umbrella := ⟨_, rfl, by decide +kernel⟩
  obtain ⟨before, answer, after, hposted, hwith, hwithout, hlength⟩ :=
    build_stands_apart service umbrellaPast [.graph] umbrellaPost.toJson umbrellaPost rfl
  obtain ⟨_, graph, -, -, hanswer⟩ := hposted.shown Story.umbrella hload
  exact ⟨rfl, service, hcreate, before, answer, after, hposted, hwith, hwithout, hlength,
    graph, hanswer⟩

end Playthrough.Service
