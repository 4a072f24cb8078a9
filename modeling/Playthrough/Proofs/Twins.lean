import Mathlib.Data.List.Forall2
import Playthrough.Graph.Highlight
import Playthrough.Proofs.Turn

/-!
# Twin walks

A walk reads a state only through its view, and it never reads the color of an edge.  So
where two engines give the same answers in states that look the same, their walks take the
same turns, whatever else the states hold and whatever colors the edges are drawn in.
-/

namespace Playthrough

variable {σ τ ε ζ : Type} [Observable σ] [Observable τ]

def Config.recolor (config : Config) (plain highlight : Text) : Config :=
  { config with defaultColor := plain, highlightColor := highlight }

/-- States that are the same to two engines look the same, and every answer of the first
engine is matched by the second one. -/
structure Engine.Matches (engine : Engine σ ε) (other : Engine τ ζ) (same : σ → τ → Prop) :
    Prop where
  view_eq : ∀ {state twin}, same state twin → view twin = view state
  answers : ∀ {state twin entity outcome}, same state twin →
    engine.attempt entity state = .ok outcome →
    ∃ answer, other.attempt entity twin = .ok answer ∧ answer.rule = outcome.rule ∧
      same outcome.next answer.next

theorem Engine.matches_self (engine : Engine σ ε) : engine.Matches engine Eq where
  view_eq := by
    rintro state _ rfl
    rfl
  answers := by
    rintro state _ entity outcome rfl answer
    exact ⟨outcome, answer, rfl, rfl⟩

/-! ## Records -/

namespace Record

/-- The same has been found, in the same order, but for the colors. -/
structure Twins (record : Record σ) (twin : Record τ) : Prop where
  views_eq : twin.visited.views = record.visited.views
  nodes_eq : twin.nodes = record.nodes
  keys_eq : twin.edges.map Edge.key = record.edges.map Edge.key
  completed_eq : twin.completed.map (·.map Edge.key) = record.completed.map (·.map Edge.key)

namespace Twins

theorem start {state : σ} {other : τ} (hview : view other = view state) (root : Text) :
    (Record.start state root).Twins (Record.start other root) where
  views_eq := congrArg (fun seen => [seen]) hview
  nodes_eq := rfl
  keys_eq := rfl
  completed_eq := rfl

variable {record : Record σ} {twin : Record τ} (h : record.Twins twin)
include h

theorem mem_visited_iff {state : σ} {other : τ} (hview : view other = view state) :
    other ∈ twin.visited ↔ state ∈ record.visited :=
  Visited.mem_congr h.views_eq hview

theorem size_eq : twin.visited.size = record.visited.size :=
  Visited.size_congr h.views_eq

theorem first_eq : (twin.completed.head?.getD []).map Edge.key =
    (record.completed.head?.getD []).map Edge.key := by
  have hfirst : ∀ paths : List (List Edge), (paths.head?.getD []).map Edge.key =
      (paths.map (·.map Edge.key)).head?.getD [] := by
    rintro (_ | ⟨path, paths⟩) <;> rfl
  rw [hfirst, hfirst, h.completed_eq]

theorem addEdge {edge other : Edge} (hkey : other.key = edge.key) :
    (record.addEdge edge).Twins (twin.addEdge other) := by
  have htarget : other.target = edge.target := congrArg Prod.snd hkey
  refine ⟨by simpa using h.views_eq, ?_, ?_, by simpa using h.completed_eq⟩
  · unfold Record.addEdge addNode
    simp only [h.nodes_eq, htarget]
    split <;> rfl
  · rw [edges_addEdge, edges_addEdge, Edge.map_key_enter, Edge.map_key_enter, h.keys_eq, hkey]

theorem visit {state : σ} {other : τ} (hview : view other = view state) :
    (record.visit state).Twins (twin.visit other) where
  views_eq := Visited.views_add_congr h.views_eq hview
  nodes_eq := h.nodes_eq
  keys_eq := h.keys_eq
  completed_eq := h.completed_eq

theorem complete {path other : List Edge} (hpath : other.map Edge.key = path.map Edge.key) :
    (record.complete path).Twins (twin.complete other) where
  views_eq := h.views_eq
  nodes_eq := h.nodes_eq
  keys_eq := h.keys_eq
  completed_eq := by simp [h.completed_eq, hpath]

end Twins

end Record

/-! ## Steps -/

structure Frame.Twins (same : σ → τ → Prop) (frame : Frame σ) (twin : Frame τ) : Prop where
  path_eq : twin.path.map Edge.key = frame.path.map Edge.key
  state_same : same frame.state twin.state
  lastRule_eq : twin.lastRule = frame.lastRule

def Meaning.recolor (color : Text) : Meaning → Meaning
  | .ending edge => .ending (edge.recolor color)
  | .flavorLoop edge => .flavorLoop (edge.recolor color)
  | .progress edge => .progress (edge.recolor color)
  | .defaultLoop => .defaultLoop
  | .defaultProgress => .defaultProgress

namespace Step

structure Twins (same : σ → τ → Prop) (color : Text) (step : Step σ) (twin : Step τ) : Prop where
  frame : step.frame.Twins same twin.frame
  next_same : same step.next twin.next
  meaning_eq : twin.meaning = step.meaning.recolor color

variable {same : σ → τ → Prop} {record : Record σ} {twin : Record τ}

theorem meaningOf_twins (config : Config) (plain highlight : Text) (h : record.Twins twin)
    {frame : Frame σ} {other : Frame τ} (hframe : other.lastRule = frame.lastRule)
    {outcome : Outcome σ} {answer : Outcome τ} (hrule : answer.rule = outcome.rule)
    (hview : view answer.next = view outcome.next) :
    meaningOf (config.recolor plain highlight) twin other answer =
      (meaningOf config record frame outcome).recolor plain := by
  unfold meaningOf
  rw [hrule]
  simp only [h.mem_visited_iff hview, hview, hframe]
  cases outcome.rule with
  | none =>
      rw [apply_ite (Meaning.recolor plain)]
      rfl
  | some rule =>
      rw [apply_ite (Meaning.recolor plain), apply_ite (Meaning.recolor plain)]
      rfl

theorem classify_twins {engine : Engine σ ε} {other : Engine τ ζ} {config : Config}
    (hmatches : engine.Matches other same) (plain highlight : Text) (h : record.Twins twin)
    {frame : Frame σ} {twinFrame : Frame τ} (hframe : frame.Twins same twinFrame)
    {entity : Text} {step : Step σ} (hstep : classify engine config record frame entity = .ok step) :
    ∃ twinStep, classify other (config.recolor plain highlight) twin twinFrame entity =
        .ok twinStep ∧
      step.Twins same plain twinStep := by
  unfold classify at hstep ⊢
  cases hattempt : engine.attempt entity frame.state with
  | error fault => simp [hattempt, Except.map] at hstep
  | ok outcome =>
      simp only [hattempt, Except.map, Except.ok.injEq] at hstep
      subst hstep
      obtain ⟨answer, hanswer, hrule, hnext⟩ := hmatches.answers hframe.state_same hattempt
      rw [hanswer]
      exact ⟨_, rfl, hframe, hnext,
        meaningOf_twins config plain highlight h hframe.lastRule_eq hrule (hmatches.view_eq hnext)⟩

variable {plain : Text} {step : Step σ} {twinStep : Step τ}

theorem Twins.enter (hstep : step.Twins same plain twinStep)
    (hview : view twinStep.next = view step.next) (h : record.Twins twin)
    (config : Config) (highlight : Text) :
    (step.enter config record).Twins
      (twinStep.enter (config.recolor plain highlight) twin) := by
  have hadd : ∀ edge, (record.addEdge edge).Twins (twin.addEdge (edge.recolor plain)) :=
    fun edge => h.addEdge (edge.key_recolor plain)
  unfold Step.enter
  rw [hstep.meaning_eq]
  cases step.meaning with
  | ending edge => exact (hadd edge).complete (by simp [hstep.frame.path_eq])
  | flavorLoop edge =>
      have hnode : (edge.recolor plain).target ∈ twin.nodes ↔ edge.target ∈ record.nodes := by
        rw [h.nodes_eq]
        rfl
      simp only [Meaning.recolor, Config.recolor, hnode]
      split
      · exact hadd edge
      · exact h
  | progress edge => exact (hadd edge).visit hview
  | defaultLoop => exact h
  | defaultProgress => exact h.visit hview

end Step

/-! ## Walks -/

structure OpenFrame.Twins (same : σ → τ → Prop) (top : OpenFrame σ) (twin : OpenFrame τ) :
    Prop where
  frame : top.frame.Twins same twin.frame
  pending_eq : twin.pending = top.pending

namespace Walk

structure Twins (same : σ → τ → Prop) (walk : Walk σ) (twin : Walk τ) : Prop where
  stack : List.Forall₂ (OpenFrame.Twins same) walk.stack twin.stack
  record : walk.record.Twins twin.record

theorem build_eq_ok {engine : Engine σ ε} {config : Config} {state : σ} {walk : Walk σ}
    (h : explore engine config ⟨[], state, config.root⟩ (.start state config.root) =
      (walk, none)) : build engine config state = .ok walk.record := by
  unfold build
  rw [h]

variable {engine : Engine σ ε} {other : Engine τ ζ} {same : σ → τ → Prop}
  (h : engine.Matches other same)
include h

theorem openFrame_twins {frame : Frame σ} {twin : Frame τ} (hframe : frame.Twins same twin) :
    (openFrame frame).Twins same (openFrame twin) where
  frame := hframe
  pending_eq := congrArg View.interactables (h.view_eq hframe.state_same)

theorem opened_twins {plain : Text} {step : Step σ} {twin : Step τ}
    (hstep : step.Twins same plain twin) :
    List.Forall₂ (OpenFrame.Twins same) (step.child?.map openFrame).toList
      (twin.child?.map openFrame).toList := by
  unfold Step.child?
  rw [hstep.meaning_eq]
  cases step.meaning with
  | ending edge => exact .nil
  | flavorLoop edge => exact .nil
  | progress edge =>
      refine .cons (openFrame_twins h ⟨?_, hstep.next_same, rfl⟩) .nil
      simp [hstep.frame.path_eq]
  | defaultLoop => exact .nil
  | defaultProgress =>
      exact .cons (openFrame_twins h
        ⟨hstep.frame.path_eq, hstep.next_same, hstep.frame.lastRule_eq⟩) .nil

theorem Twins.advance {walk : Walk σ} {twin : Walk τ} (htwins : Twins same walk twin)
    {plain : Text} {step : Step σ} {twinStep : Step τ} (hstep : step.Twins same plain twinStep)
    (config : Config) (highlight : Text) :
    Twins same (walk.advance config step)
      (twin.advance (config.recolor plain highlight) twinStep) where
  stack := List.rel_append (opened_twins h hstep) htwins.stack
  record := hstep.enter (h.view_eq hstep.next_same) htwins.record config highlight

theorem Twins.run {config : Config} {fuel : Nat} {walk last : Walk σ} {twin : Walk τ}
    (htwins : Twins same walk twin) (plain highlight : Text)
    (hrun : run engine config fuel walk = (last, none)) :
    ∃ twinLast, run other (config.recolor plain highlight) fuel twin = (twinLast, none) ∧
      Twins same last twinLast := by
  induction fuel generalizing walk twin with
  | zero =>
      have hstack : walk.stack = [] := by
        have hnone := congrArg Prod.snd hrun
        simpa [Walk.run] using hnone
      have htwin : twin.stack = [] := by
        have hforall := htwins.stack
        rw [hstack] at hforall
        exact List.forall₂_nil_left_iff.1 hforall
      cases congrArg Prod.fst hrun
      exact ⟨twin, by simp [Walk.run, htwin], htwins⟩
  | succ fuel ih =>
      obtain ⟨stack, record, history⟩ := walk
      obtain ⟨twinStack, twinRecord, twinHistory⟩ := twin
      obtain ⟨hstack, hrecord⟩ := htwins
      cases hstack with
      | nil =>
          cases hrun
          exact ⟨_, rfl, .nil, hrecord⟩
      | @cons top twinTop below twinBelow htop hbelow =>
          obtain ⟨frame, pending⟩ := top
          obtain ⟨twinFrame, twinPending⟩ := twinTop
          obtain ⟨hframe, hpending⟩ := htop
          change twinPending = pending at hpending
          subst hpending
          cases twinPending with
          | nil =>
              have hleft : Twins same ⟨below, record, history⟩
                  ⟨twinBelow, twinRecord, twinHistory⟩ := ⟨hbelow, hrecord⟩
              exact ih hleft hrun
          | cons entity pending =>
              simp only [Walk.run] at hrun ⊢
              cases hstep : Step.classify engine config record frame entity with
              | error fault => simp [hstep] at hrun
              | ok step =>
                  simp only [hstep] at hrun
                  obtain ⟨twinStep, hclassify, htwin⟩ :=
                    Step.classify_twins h plain highlight hrecord hframe hstep
                  simp only [hclassify]
                  have hleft : Twins same ⟨⟨frame, pending⟩ :: below, record, history⟩
                      ⟨⟨twinFrame, pending⟩ :: twinBelow, twinRecord, twinHistory⟩ :=
                    ⟨.cons ⟨hframe, rfl⟩ hbelow, hrecord⟩
                  exact ih (hleft.advance h htwin config highlight) hrun

theorem exists_build_twins {config : Config} {start : σ} {twinStart : τ} {record : Record σ}
    (hstart : same start twinStart) (hbudget : other.budget twinStart = engine.budget start)
    (plain highlight : Text) (hbuild : build engine config start = .ok record) :
    ∃ twin, build other (config.recolor plain highlight) twinStart = .ok twin ∧
      record.Twins twin := by
  have hfresh : Twins same (fresh config start) (fresh config twinStart) :=
    ⟨.cons (openFrame_twins h ⟨rfl, hstart, rfl⟩) .nil, .start (h.view_eq hstart) config.root⟩
  obtain ⟨last, hfinished, rfl⟩ := build_finished hbuild
  obtain ⟨twinLast, hrun, htwins⟩ := hfresh.run h plain highlight hfinished.explored
  rw [← hbudget] at hrun
  exact ⟨twinLast.record, build_eq_ok hrun, htwins.record⟩

end Walk

end Playthrough
