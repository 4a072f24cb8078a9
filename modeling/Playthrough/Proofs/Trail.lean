import Playthrough.Proofs.Retelling

/-!
# Trails

A walk gets to each recorded state on one run, and draws the edge on which that run
arrives.  The run is direct: it never comes back to what it has seen.
-/

namespace Playthrough

variable {σ ε : Type}

/-! ## Direct runs -/

def passed (start : σ) (taken : List (Interaction σ)) : List σ :=
  start :: taken.map fun interaction => interaction.outcome.next

theorem passed_snoc (start : σ) (taken : List (Interaction σ)) (last : Interaction σ) :
    passed start (taken ++ [last]) = passed start taken ++ [last.outcome.next] := by
  simp [passed]

def lastFired (root : Text) (taken : List (Interaction σ)) : Text :=
  (fired taken).getLast?.getD root

/-- The rule that fired last on a run, with the one that fired before it. -/
def arrival (root : Text) (taken : List (Interaction σ)) : Option (Text × Text) :=
  (fired taken).getLast?.map fun rule => ((fired taken).dropLast.getLast?.getD root, rule)

theorem arrival_snoc (root : Text) (taken : List (Interaction σ)) (last : Interaction σ) :
    arrival root (taken ++ [last]) =
      (last.outcome.rule.map fun rule => (lastFired root taken, rule)).or
        (arrival root taken) := by
  unfold arrival lastFired
  rw [fired_snoc]
  cases last.outcome.rule with
  | none => simp
  | some rule => simp

theorem lastFired_eq_arrival (root : Text) (taken : List (Interaction σ)) :
    lastFired root taken = ((arrival root taken).map Prod.snd).getD root := by
  unfold lastFired arrival
  rw [Option.map_map]
  simp [Function.comp_def]

theorem lastFired_snoc (root : Text) (taken : List (Interaction σ)) (last : Interaction σ) :
    lastFired root (taken ++ [last]) = last.outcome.rule.getD (lastFired root taken) := by
  unfold lastFired
  rw [fired_snoc]
  cases last.outcome.rule with
  | none => simp
  | some rule => simp

variable [Observable σ]

namespace Engine

/-- No two states on the way look the same, and no rule fires into a named ending. -/
structure Direct (engine : Engine σ ε) (start : σ) (taken : List (Interaction σ))
    (state : σ) : Prop where
  run : engine.Run start taken state
  unfinished : Unfinished taken
  distinct : (passed start taken).Pairwise fun first second => ¬ ObservablyEqual first second

/-- What is tried at the end of a run ends a playthrough or leads to something new. -/
def Advances (start : σ) (taken : List (Interaction σ)) (last : Interaction σ) : Prop :=
  last.outcome.IsEnding ∨
    ∀ state ∈ passed start taken, ¬ ObservablyEqual state last.outcome.next

/-- A rule fires at the end of a direct run.  The pair has it after the one before it. -/
structure Fires (engine : Engine σ ε) (root : Text) (start : σ) (pair : Text × Text)
    (taken : List (Interaction σ)) (last : Interaction σ) : Prop where
  direct : engine.Direct start taken last.state
  answers : engine.Answers last
  source_eq : lastFired root taken = pair.1
  rule_eq : last.outcome.rule = some pair.2

def Occurs (engine : Engine σ ε) (root : Text) (start : σ) (pair : Text × Text) : Prop :=
  ∃ taken last, engine.Fires root start pair taken last

/-- One rule fires after another on a direct run, and the run leads on. -/
def Draws (engine : Engine σ ε) (root : Text) (start : σ) (pair : Text × Text) : Prop :=
  ∃ taken last, engine.Fires root start pair taken last ∧ Advances start taken last

theorem Direct.snoc {engine : Engine σ ε} {start : σ} {taken : List (Interaction σ)}
    {last : Interaction σ} (h : engine.Direct start taken last.state)
    (hanswers : engine.Answers last) (hopen : ¬ last.outcome.IsEnding)
    (hnew : ∀ state ∈ passed start taken, ¬ ObservablyEqual state last.outcome.next) :
    engine.Direct start (taken ++ [last]) last.outcome.next where
  run := h.run.step hanswers
  unfinished := unfinished_snoc.2 ⟨h.unfinished, hopen⟩
  distinct := by
    rw [passed_snoc]
    exact List.pairwise_append.2 ⟨h.distinct, List.pairwise_singleton _ _, by simpa using hnew⟩

theorem Run.state_mem_passed {engine : Engine σ ε} {start state : σ}
    {taken : List (Interaction σ)} (h : engine.Run start taken state) :
    state ∈ passed start taken := by
  cases h with
  | here => exact List.mem_cons_self
  | step => simp [passed_snoc]

theorem direct_nil (engine : Engine σ ε) (start : σ) : engine.Direct start [] start where
  run := .here
  unfinished := unfinished_nil
  distinct := List.pairwise_singleton _ _

end Engine

/-! ## Runs of a walk -/

/-- A direct run through recorded states, with the edge recorded on which it arrives. -/
structure Trail (engine : Engine σ ε) (root : Text) (start : σ) (record : Record σ)
    (taken : List (Interaction σ)) (state : σ) : Prop where
  direct : engine.Direct start taken state
  visited : ∀ state ∈ passed start taken, state ∈ record.visited
  recorded : ∀ pair, arrival root taken = some pair → pair ∈ record.edges.map Edge.key

theorem Trail.grows {engine : Engine σ ε} {root : Text} {start state : σ}
    {before after : Record σ} {taken : List (Interaction σ)}
    (h : Trail engine root start before taken state) (hgrows : before.Grows after) :
    Trail engine root start after taken state where
  direct := h.direct
  visited state hstate := hgrows.mem_visited (h.visited state hstate)
  recorded pair hpair := (hgrows.edges.map Edge.key).subset (h.recorded pair hpair)

/-- A trail leads to the state of a frame, and the frame's last rule fired last on it. -/
def Frame.Traced (engine : Engine σ ε) (root : Text) (start : σ) (record : Record σ)
    (frame : Frame σ) : Prop :=
  ∃ taken, Trail engine root start record taken frame.state ∧
    lastFired root taken = frame.lastRule

theorem Frame.Traced.grows {engine : Engine σ ε} {root : Text} {start : σ}
    {before after : Record σ} {frame : Frame σ}
    (h : frame.Traced engine root start before) (hgrows : before.Grows after) :
    frame.Traced engine root start after := by
  obtain ⟨taken, htrail, hlast⟩ := h
  exact ⟨taken, htrail.grows hgrows, hlast⟩

namespace Step.Judged

variable {engine : Engine σ ε} {config : Config} {start : σ} {record : Record σ}
  {frame : Frame σ} {entity : Text} {outcome : Outcome σ} {step : Step σ}
  {taken : List (Interaction σ)}

theorem advances (h : Judged config record frame entity outcome step)
    (htrail : Trail engine config.root start record taken frame.state)
    (hkept : outcome.IsEnding ∨ step.child?.isSome) :
    Engine.Advances start taken ⟨frame.state, entity, outcome⟩ := by
  refine hkept.imp_right fun hchild state hstate hequal => ?_
  obtain ⟨child, hchild⟩ := Option.isSome_iff_exists.1 hchild
  obtain ⟨known, hknown, hsame⟩ := Visited.mem_iff.1 (htrail.visited state hstate)
  exact h.not_mem_visited_of_child hchild
    (Visited.mem_iff.2 ⟨known, hknown, hsame.trans hequal⟩)

theorem trail_child (h : Judged config record frame entity outcome step)
    (htrail : Trail engine config.root start record taken frame.state)
    (hlast : lastFired config.root taken = frame.lastRule)
    (hanswers : engine.Answers ⟨frame.state, entity, outcome⟩)
    {child : Frame σ} (hchild : step.child? = some child) :
    Trail engine config.root start (step.enter config record)
      (taken ++ [⟨frame.state, entity, outcome⟩]) outcome.next := by
  have hgrown := htrail.grows (step.grows_enter config record)
  have hopen := h.not_isEnding_of_child hchild
  have hkept : outcome.IsEnding ∨ step.child?.isSome := .inr (by simp [hchild])
  have hnew := (h.advances htrail hkept).resolve_left hopen
  refine ⟨htrail.direct.snoc hanswers hopen hnew, ?_, ?_⟩
  · intro state hstate
    rw [passed_snoc] at hstate
    rcases List.mem_append.1 hstate with hold | hnext
    · exact hgrown.visited state hold
    · rw [List.mem_singleton.1 hnext]
      exact h.next_mem_visited hopen
  · intro pair hpair
    rw [arrival_snoc] at hpair
    cases hrule : outcome.rule with
    | none => exact hgrown.recorded pair (by simpa [hrule] using hpair)
    | some rule =>
        obtain rfl : (lastFired config.root taken, rule) = pair := by
          simpa [hrule] using hpair
        rw [hlast]
        exact h.key_mem_edges_enter hrule hkept

theorem traced_child (h : Judged config record frame entity outcome step)
    (hframe : frame.Traced engine config.root start record)
    (hanswers : engine.Answers ⟨frame.state, entity, outcome⟩)
    {child : Frame σ} (hchild : step.child? = some child) :
    child.Traced engine config.root start (step.enter config record) := by
  obtain ⟨taken, htrail, hlast⟩ := hframe
  refine ⟨taken ++ [⟨frame.state, entity, outcome⟩], ?_, ?_⟩
  · rw [h.child_eq_after hchild, Frame.state_after]
    exact h.trail_child htrail hlast hanswers hchild
  · rw [h.child_eq_after hchild, lastFired_snoc, hlast]
    unfold Frame.after
    cases outcome.rule <;> rfl

end Step.Judged

namespace Walk

structure Tracing (engine : Engine σ ε) (config : Config) (start : σ) (walk : Walk σ) :
    Prop where
  frames : ∀ top ∈ walk.stack, top.frame.Traced engine config.root start walk.record
  visited : ∀ state ∈ walk.record.visited.states, ∃ taken,
    Trail engine config.root start walk.record taken state
  ended : ∀ interaction ∈ walk.interactions, ∀ rule, interaction.outcome.rule = some rule →
    interaction.outcome.IsEnding → ∃ taken,
      Trail engine config.root start walk.record taken interaction.state ∧
      (lastFired config.root taken, rule) ∈ walk.record.edges.map Edge.key
  fired : ∀ edge ∈ walk.record.edges, engine.Occurs config.root start edge.key
  drawn : config.includeNonProgressing = false → ∀ edge ∈ walk.record.edges,
    engine.Draws config.root start edge.key

variable {engine : Engine σ ε} {config : Config} {start : σ}

theorem trail_nil (engine : Engine σ ε) (config : Config) (start : σ) :
    Trail engine config.root start (fresh config start).record [] start where
  direct := engine.direct_nil start
  visited := by
    intro state hstate
    rw [List.mem_singleton.1 hstate]
    exact Visited.mem_iff.2 ⟨start, List.mem_singleton_self start, rfl⟩
  recorded := by simp [arrival]

theorem tracing_fresh : Tracing engine config start (fresh config start) where
  frames := by
    intro top htop
    rw [List.mem_singleton.1 htop]
    exact ⟨[], trail_nil engine config start, rfl⟩
  visited := by
    intro state hstate
    rw [List.mem_singleton.1 hstate]
    exact ⟨[], trail_nil engine config start⟩
  ended := by simp [fresh, Walk.start, interactions]
  fired := by simp [fresh, Walk.start, Record.start]
  drawn := by simp [fresh, Walk.start, Record.start]

theorem Turn.tracing {walk after : Walk σ} (turn : Turn engine config walk after)
    (hsaturating : Saturating engine start walk) (h : Tracing engine config start walk) :
    Tracing engine config start after := by
  cases turn with
  | leave =>
      refine ⟨?_, h.visited, h.ended, h.fired, h.drawn⟩
      intro top htop
      exact h.frames top (List.mem_cons_of_mem _ htop)
  | @attempt frame entity pending below record history outcome step answer judged =>
      have hgrows := step.grows_enter config record
      have hanswers := (hsaturating.answers_top answer).2
      have hframe := h.frames _ List.mem_cons_self
      have hgrown := hframe.grows hgrows
      obtain ⟨taken, htrail, hlast⟩ := hframe
      constructor
      case frames =>
        intro top htop
        rcases mem_stack_advance.1 htop with ⟨child, hchild, rfl⟩ | hold
        · exact judged.traced_child ⟨taken, htrail, hlast⟩ hanswers hchild
        · rcases List.mem_cons.1 hold with rfl | hbelow
          · exact hgrown
          · exact (h.frames top (List.mem_cons_of_mem _ hbelow)).grows hgrows
      case visited =>
        intro state hstate
        change state ∈ (step.enter config record).visited.states at hstate
        rw [judged.states_enter] at hstate
        rcases List.mem_append.1 hstate with hold | hnew
        · obtain ⟨before, hbefore⟩ := h.visited state hold
          exact ⟨before, hbefore.grows hgrows⟩
        · obtain ⟨child, hchild, rfl⟩ :=
            Option.map_eq_some_iff.1 (Option.mem_toList.1 hnew)
          rw [judged.child_eq_after hchild, Frame.state_after]
          exact ⟨_, judged.trail_child htrail hlast hanswers hchild⟩
      case ended =>
        intro interaction hinteraction rule hrule hending
        rcases (mem_interactions_advance judged).1 hinteraction with hold | rfl
        · obtain ⟨before, hbefore, hmem⟩ := h.ended interaction hold rule hrule hending
          exact ⟨before, hbefore.grows hgrows, (hgrows.edges.map Edge.key).subset hmem⟩
        · refine ⟨taken, htrail.grows hgrows, ?_⟩
          rw [hlast]
          exact judged.key_mem_edges_enter hrule (.inl hending)
      case fired =>
        intro edge hedge
        rcases judged.mem_edges_of_enter hedge with hold | ⟨rule, hrule, rfl, -⟩
        · exact h.fired edge hold
        · exact ⟨taken, _, htrail.direct, hanswers, hlast, hrule⟩
      case drawn =>
        intro hflag edge hedge
        rcases judged.mem_edges_of_enter hedge with hold | ⟨rule, hrule, rfl, hkept⟩
        · exact h.drawn hflag edge hold
        · have hadvances : outcome.IsEnding ∨ step.child?.isSome := by
            simpa [hflag] using hkept
          exact ⟨taken, _, ⟨htrail.direct, hanswers, hlast, hrule⟩,
            judged.advances htrail hadvances⟩

theorem Turns.tracing {walk : Walk σ}
    (turns : Turns engine config (fresh config start) walk) :
    Tracing engine config start walk :=
  turns.keeps_along (fun _ _ turns turn => turn.tracing turns.saturating) tracing_fresh

end Walk

end Playthrough
