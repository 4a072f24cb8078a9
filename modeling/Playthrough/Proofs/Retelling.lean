import Playthrough.Proofs.Saturation

/-!
# Completed playthroughs

The path of a frame tells which rules fired on some run to the frame's state.  Steps
without a rule lengthen the run and leave the path as it is.  A completed path is the
path of a frame with the edge of an ending added, so it tells a whole playthrough.
-/

namespace Playthrough

variable {σ ε : Type} [Observable σ]

/-- The path of a frame tells a run to its state that ends nothing. -/
structure Frame.Retells (engine : Engine σ ε) (root : Text) (start : σ)
    (record : Record σ) (frame : Frame σ) : Prop where
  run : ∃ taken, engine.Run start taken frame.state ∧ Unfinished taken ∧
    fired taken = frame.path.map Edge.target
  chained : frame.path.map Edge.source ++ [frame.lastRule] =
    root :: frame.path.map Edge.target
  recorded : ∀ edge ∈ frame.path, edge.key ∈ record.edges.map Edge.key
  short : frame.path.length < record.visited.size

/-- A path tells a playthrough: a run to its first ending, whose edges are recorded. -/
structure Tells (engine : Engine σ ε) (root : Text) (start : σ) (record : Record σ)
    (path : List Edge) : Prop where
  nonempty : path ≠ []
  run : ∃ taken last state, engine.Run start (taken ++ [last]) state ∧
    fired (taken ++ [last]) = path.map Edge.target ∧
    last.outcome.rule = path.getLast?.map Edge.target ∧
    last.outcome.IsEnding ∧ Unfinished taken
  chained : path.map Edge.source = root :: (path.map Edge.target).dropLast
  recorded : ∀ edge ∈ path, edge.key ∈ record.edges.map Edge.key
  short : path.length ≤ record.visited.size

section

variable {engine : Engine σ ε} {root : Text} {start : σ} {before after : Record σ}

theorem Frame.Retells.grows {frame : Frame σ}
    (h : frame.Retells engine root start before) (hgrows : before.Grows after) :
    frame.Retells engine root start after where
  run := h.run
  chained := h.chained
  recorded edge hedge := hgrows.mem_keys (h.recorded edge hedge)
  short := Nat.lt_of_lt_of_le h.short hgrows.size_le

theorem Tells.grows {path : List Edge} (h : Tells engine root start before path)
    (hgrows : before.Grows after) : Tells engine root start after path where
  nonempty := h.nonempty
  run := h.run
  chained := h.chained
  recorded edge hedge := hgrows.mem_keys (h.recorded edge hedge)
  short := Nat.le_trans h.short hgrows.size_le

end

/-! ## What a step adds -/

namespace Step.Judged

variable {engine : Engine σ ε} {config : Config} {start : σ} {record : Record σ}
  {frame : Frame σ} {entity : Text} {outcome : Outcome σ} {step : Step σ}

theorem key_mem_edges_enter (h : Judged config record frame entity outcome step)
    {rule : Text} (hrule : outcome.rule = some rule)
    (hkept : outcome.IsEnding ∨ step.child?.isSome) :
    (frame.edgeTo config rule).key ∈ (step.enter config record).edges.map Edge.key := by
  cases h with
  | ending complete =>
      cases hrule
      simpa [enter] using record.key_mem_edges_addEdge (frame.edgeTo config rule)
  | flavorLoop open_ known => simp [child?, Outcome.IsEnding, open_] at hkept
  | progress open_ new =>
      cases hrule
      simpa [enter] using record.key_mem_edges_addEdge (frame.edgeTo config rule)
  | defaultLoop known => simp at hrule
  | defaultProgress new => simp at hrule

theorem recorded_snoc (h : Judged config record frame entity outcome step)
    (hframe : frame.Retells engine config.root start record) {rule : Text}
    (hrule : outcome.rule = some rule) (hkept : outcome.IsEnding ∨ step.child?.isSome) :
    ∀ edge ∈ frame.path ++ [frame.edgeTo config rule],
      edge.key ∈ (step.enter config record).edges.map Edge.key := by
  intro edge hedge
  rcases List.mem_append.1 hedge with hold | hnew
  · exact (step.grows_enter config record).mem_keys (hframe.recorded edge hold)
  · rw [List.mem_singleton.1 hnew]
    exact h.key_mem_edges_enter hrule hkept

theorem size_enter (h : Judged config record frame entity outcome step)
    (hchild : step.child?.isSome) :
    (step.enter config record).visited.size = record.visited.size + 1 := by
  obtain ⟨child, hchild⟩ := Option.isSome_iff_exists.1 hchild
  unfold Visited.size
  rw [h.states_enter, hchild]
  simp

theorem retells_child (h : Judged config record frame entity outcome step)
    (hframe : frame.Retells engine config.root start record)
    (hanswers : engine.Answers ⟨frame.state, entity, outcome⟩)
    {child : Frame σ} (hchild : step.child? = some child) :
    child.Retells engine config.root start (step.enter config record) := by
  have hkept : step.child?.isSome := by simp [hchild]
  have hsize := h.size_enter hkept
  have hshort := hframe.short
  obtain ⟨taken, hrun, hunfinished, hfired⟩ := hframe.run
  have hlonger : Unfinished (taken ++ [⟨frame.state, entity, outcome⟩]) :=
    unfinished_snoc.2 ⟨hunfinished, h.not_isEnding_of_child hchild⟩
  rw [h.child_eq_after hchild]
  unfold Frame.after
  cases hrule : outcome.rule with
  | none =>
      refine ⟨⟨_, hrun.step hanswers, hlonger, ?_⟩, hframe.chained, ?_, ?_⟩
      · simp [hfired, hrule]
      · exact (hframe.grows (step.grows_enter config record)).recorded
      · rw [hsize]
        exact Nat.lt_succ_of_lt hshort
  | some rule =>
      refine ⟨⟨_, hrun.step hanswers, hlonger, ?_⟩, ?_,
        h.recorded_snoc hframe hrule (.inr hkept), ?_⟩
      · simp [hfired, hrule, Frame.edgeTo]
      · have hchained := hframe.chained
        simp only [List.map_append, List.map_cons, List.map_nil, ← List.cons_append]
        rw [← hchained]
        rfl
      · rw [hsize]
        simpa using hshort

theorem tells_completed (h : Judged config record frame entity outcome step)
    (hframe : frame.Retells engine config.root start record)
    (hanswers : engine.Answers ⟨frame.state, entity, outcome⟩)
    (hending : outcome.IsEnding) {rule : Text} (hrule : outcome.rule = some rule) :
    Tells engine config.root start (step.enter config record)
      (frame.path ++ [frame.edgeTo config rule]) := by
  have hsize := (step.grows_enter config record).size_le
  have hshort := hframe.short
  obtain ⟨taken, hrun, hunfinished, hfired⟩ := hframe.run
  constructor
  · simp
  · refine ⟨taken, _, outcome.next, hrun.step hanswers, ?_, ?_, hending, hunfinished⟩
    · simp [hfired, hrule, Frame.edgeTo]
    · simp [hrule, Frame.edgeTo]
  · have hchained := hframe.chained
    simpa [Frame.edgeTo] using hchained
  · exact h.recorded_snoc hframe hrule (.inl hending)
  · simp only [List.length_append, List.length_singleton]
    omega

end Step.Judged

/-! ## The whole walk -/

namespace Walk

structure Retelling (engine : Engine σ ε) (config : Config) (start : σ)
    (walk : Walk σ) : Prop where
  frames : ∀ top ∈ walk.stack, top.frame.Retells engine config.root start walk.record
  completed : ∀ path ∈ walk.record.completed,
    Tells engine config.root start walk.record path

variable {engine : Engine σ ε} {config : Config} {start : σ}

theorem retelling_fresh : Retelling engine config start (fresh config start) where
  frames := by
    intro top htop
    rw [List.mem_singleton.1 htop]
    refine ⟨⟨[], .here, unfinished_nil, rfl⟩, rfl, by simp [openFrame], ?_⟩
    unfold Visited.size
    rw [states_fresh]
    simp [openFrame]
  completed := by simp [fresh, Walk.start, Record.start]

theorem Turn.retelling {walk after : Walk σ} (turn : Turn engine config walk after)
    (hsaturating : Saturating engine start walk) (h : Retelling engine config start walk) :
    Retelling engine config start after := by
  cases turn with
  | leave =>
      refine ⟨?_, h.completed⟩
      intro top htop
      exact h.frames top (List.mem_cons_of_mem _ htop)
  | @attempt frame entity pending below record history outcome step answer judged =>
      have hgrows := step.grows_enter config record
      have hanswers := (hsaturating.answers_top answer).2
      have hframe := h.frames _ List.mem_cons_self
      constructor
      · intro top htop
        rcases mem_stack_advance.1 htop with ⟨child, hchild, rfl⟩ | hold
        · exact judged.retells_child hframe hanswers hchild
        · rcases List.mem_cons.1 hold with rfl | hbelow
          · exact hframe.grows hgrows
          · exact (h.frames top (List.mem_cons_of_mem _ hbelow)).grows hgrows
      · intro path hpath
        change path ∈ (step.enter config record).completed at hpath
        rw [judged.completed_enter] at hpath
        rcases List.mem_append.1 hpath with hold | hnew
        · exact (h.completed path hold).grows hgrows
        · split at hnew
          · next hending =>
              obtain ⟨rule, hrule, rfl⟩ :=
                Option.map_eq_some_iff.1 (Option.mem_toList.1 hnew)
              exact judged.tells_completed hframe hanswers hending hrule
          · cases hnew

theorem Turns.retelling {walk : Walk σ}
    (turns : Turns engine config (fresh config start) walk) :
    Retelling engine config start walk :=
  turns.keeps_along (fun _ _ turns turn => turn.retelling turns.saturating) retelling_fresh

/-- Every completed path is a real playthrough. -/
theorem tells_of_mem_completed (engine : Engine σ ε) (config : Config) (start : σ)
    (record : Record σ) (h : build engine config start = .ok record) (path : List Edge)
    (hpath : path ∈ record.completed) :
    Tells engine config.root start record path := by
  obtain ⟨walk, hfinished, rfl⟩ := build_finished h
  exact hfinished.turns.retelling.completed path hpath

theorem tells_umbrellaPath :
    ∃ record, build (Rule.engine Story.umbrella.rules) {}
        Story.umbrella.manifest.startWorld = .ok record ∧ umbrellaPath ∈ record.completed ∧
      Tells (Rule.engine Story.umbrella.rules) "Begining"
        Story.umbrella.manifest.startWorld record umbrellaPath := by
  have hpath : umbrellaPath ∈ [umbrellaPath] := List.mem_cons_self
  exact ⟨_, rfl, hpath, tells_of_mem_completed _ {} _ _ rfl _ hpath⟩

end Walk

end Playthrough
