import Playthrough.Proofs.Endings

/-!
# When a story is over

Rules refuse every interaction once an ending is set, whatever its name.  A walk takes a
story to be over where a rule fires into an ending with a name.  The two agree on a walk
unless a rule fires there that sets the ending without a name: then the walk goes on
from a state that refuses everything, and no playthrough is completed.
-/

namespace Playthrough

/-! ## Endings set by rules -/

def Effect.ending? (effect : Effect) : Option Text :=
  if effect.kind = .setEnding then some effect.subject else none

theorem Effect.ending_apply (effect : Effect) (draft : Draft) :
    (effect.apply draft).ending = effect.ending?.or draft.ending := by
  unfold Effect.apply Effect.ending?
  cases effect.kind <;> rfl

namespace Rule

/-- The ending that a rule leaves behind: the last one that it sets. -/
def ending? (rule : Rule) : Option Text := (rule.effects.filterMap Effect.ending?).getLast?

theorem ending_draft (rule : Rule) (world : World) :
    (rule.draft world).ending = rule.ending?.or world.ending := by
  unfold Rule.draft Rule.ending?
  -- from the last effect back: it either sets the ending or keeps the one before it
  induction rule.effects using List.reverseRecOn with
  | nil => rfl
  | append_singleton effects last ih =>
      rw [List.foldl_concat, Effect.ending_apply, ih]
      cases hlast : last.ending? <;> simp [hlast]

theorem ending_apply {rule : Rule} {world next : World} (h : rule.apply world = .ok next) :
    next.ending = rule.ending?.or world.ending := by
  rw [← ending_draft]
  obtain ⟨-, rfl⟩ := Draft.settle_eq_ok_iff.1 h
  rfl

variable {rules : List Rule} {world : World}

/-- Every interaction is refused, since an ending is set. -/
structure Refuses (rules : List Rule) (world : World) : Prop where
  ended : world.ending ≠ none
  refused : ∀ entity, (engine rules).attempt entity world = .ok ⟨world, none⟩

theorem refuses_iff : Refuses rules world ↔ world.ending ≠ none := by
  refine ⟨Refuses.ended, fun hended => ⟨hended, fun entity => ?_⟩⟩
  obtain ⟨ending, hending⟩ := Option.ne_none_iff_exists'.1 hended
  change attempt (byPriority rules) entity world = _
  unfold attempt
  rw [hending]

theorem exists_ending_of_fired {entity fired : Text} {outcome : Outcome World}
    (h : (engine rules).attempt entity world = .ok outcome)
    (hfired : outcome.rule = some fired) :
    ∃ rule ∈ rules, rule.summary = fired ∧ outcome.next.ending = rule.ending? := by
  obtain ⟨hopen, rule, hrule, hsummary, happly⟩ := attempt_fired h hfired
  refine ⟨rule, hrule, hsummary, ?_⟩
  rw [ending_apply happly, hopen, Option.or_none]

theorem ending_eq_none_of_unfired {entity : Text} {outcome : Outcome World}
    (h : (engine rules).attempt entity world = .ok outcome) (hunfired : outcome.rule = none)
    (hopen : world.ending = none) : outcome.next.ending = none := by
  rcases attempt_cases h with ⟨hended, -⟩ | ⟨-, rule, -, -, next, -, rfl⟩ | ⟨-, -, rfl⟩
  · exact absurd hopen hended
  · cases hunfired
  · unfold World.interact
    split
    · exact hopen
    · split <;> exact hopen

end Rule

theorem World.isComplete_iff_of_ne {world : World} (hnamed : world.ending ≠ some "") :
    (view world).isComplete = true ↔ world.ending ≠ none := by
  rw [View.isComplete_iff, Option.ne_none_iff_exists']
  refine exists_congr fun ending => and_iff_left_of_imp fun hending => ?_
  rintro rfl
  exact hnamed hending

theorem Rule.ending_eq_none_of_named {rules : List Rule} {entity : Text} {world : World}
    {outcome : Outcome World} (h : (engine rules).attempt entity world = .ok outcome)
    (hopen : world.ending = none) (hunended : ¬ outcome.IsEnding)
    (hnamed : outcome.rule.isSome → outcome.next.ending ≠ some "") :
    outcome.next.ending = none := by
  cases hrule : outcome.rule with
  | none => exact ending_eq_none_of_unfired h hrule hopen
  | some rule =>
      have hfired : outcome.rule.isSome := by simp [hrule]
      by_contra hended
      exact hunended ⟨hfired, (World.isComplete_iff_of_ne (hnamed hfired)).2 hended⟩

/-! ## Steps and their outcomes -/

namespace Step.Judged

variable {σ : Type} [Observable σ] {config : Config} {record : Record σ} {frame : Frame σ}
  {entity : Text} {outcome : Outcome σ} {step : Step σ}

theorem outcome_eq (h : Judged config record frame entity outcome step) :
    outcome = ⟨step.next, step.rule?⟩ :=
  (congrArg Interaction.outcome h.interaction_eq).symm

theorem frame_eq (h : Judged config record frame entity outcome step) :
    step.frame = frame := by
  cases h <;> rfl

theorem meaning_eq_ending_iff (h : Judged config record frame entity outcome step) :
    (∃ edge, step.meaning = .ending edge) ↔ outcome.IsEnding := by
  cases h with
  | ending complete => exact iff_of_true ⟨_, rfl⟩ ⟨rfl, complete⟩
  | flavorLoop open_ known => exact iff_of_false (by simp) fun hending => open_ hending.2
  | progress open_ new => exact iff_of_false (by simp) fun hending => open_ hending.2
  | defaultLoop known => exact iff_of_false (by simp) (by simp [Outcome.IsEnding])
  | defaultProgress new => exact iff_of_false (by simp) (by simp [Outcome.IsEnding])

theorem path_mem_completed (h : Judged config record frame entity outcome step)
    (hending : outcome.IsEnding) {rule : Text} (hrule : outcome.rule = some rule) :
    frame.path ++ [frame.edgeTo config rule] ∈ (step.enter config record).completed := by
  rw [h.completed_enter, if_pos hending, hrule]
  simp

end Step.Judged

namespace Walk

/-- Each step is the answer of the rules where it was taken, and what it completed is
kept. -/
structure Accounted (rules : List Rule) (config : Config) (walk : Walk World) : Prop where
  answered : ∀ step ∈ walk.steps, ∃ entity record outcome,
    (Rule.engine rules).attempt entity step.frame.state = .ok outcome ∧
      Step.Judged config record step.frame entity outcome step
  recorded : ∀ step ∈ walk.steps, ∀ rule, step.rule? = some rule →
    (view step.next).isComplete = true →
    step.frame.path ++ [step.frame.edgeTo config rule] ∈ walk.record.completed

def Named (walk : Walk World) : Prop :=
  ∀ step ∈ walk.steps, step.rule?.isSome → step.next.ending ≠ some ""

structure Open (walk : Walk World) : Prop where
  stack : ∀ top ∈ walk.stack, top.frame.state.ending = none
  steps : ∀ step ∈ walk.steps, step.frame.state.ending = none ∧
    ∀ child, step.child? = some child → child.state.ending = none

/-- Rules and walk agree on where the story is over. -/
structure Closes (rules : List Rule) (config : Config) (walk : Walk World) : Prop where
  agrees : ∀ step ∈ walk.steps, (∃ edge, step.meaning = .ending edge) ↔
    step.rule?.isSome ∧ Rule.Refuses rules step.next
  goes_on : walk.Open
  recorded : ∀ step ∈ walk.steps, ∀ rule, step.rule? = some rule → step.next.ending ≠ none →
    step.frame.path ++ [step.frame.edgeTo config rule] ∈ walk.record.completed

variable {rules : List Rule} {config : Config} {walk after : Walk World}

theorem accounted_fresh (start : World) : (fresh config start).Accounted rules config where
  answered := by simp [fresh, Walk.start, steps]
  recorded := by simp [fresh, Walk.start, steps]

theorem Turn.accounted (turn : Turn (Rule.engine rules) config walk after)
    (h : walk.Accounted rules config) : after.Accounted rules config := by
  cases turn with
  | leave => exact ⟨h.answered, h.recorded⟩
  | @attempt frame entity pending below record history outcome step answer judged =>
      have hframe := judged.frame_eq
      subst hframe
      constructor
      · intro other hother
        rcases mem_steps_advance.1 hother with hold | rfl
        · exact h.answered other hold
        · exact ⟨entity, record, outcome, answer, judged⟩
      · intro other hother rule hrule hcomplete
        rcases mem_steps_advance.1 hother with hold | rfl
        · have hgrows := step.grows_enter config record
          exact hgrows.completed.subset (h.recorded other hold rule hrule hcomplete)
        · have houtcome := judged.outcome_eq
          subst houtcome
          refine judged.path_mem_completed ⟨?_, hcomplete⟩ hrule
          rw [hrule]
          rfl

theorem open_fresh {start : World} (hopen : start.ending = none) :
    (fresh config start).Open where
  stack top htop := by
    rw [List.mem_singleton.1 htop]
    exact hopen
  steps := by simp [fresh, Walk.start, Walk.steps]

theorem Turn.open_ (turn : Turn (Rule.engine rules) config walk after)
    (h : walk.Named → walk.Open) (hnamed : after.Named) : after.Open := by
  cases turn with
  | leave =>
      obtain ⟨hstack, hsteps⟩ := h hnamed
      exact ⟨fun top htop => hstack top (List.mem_cons_of_mem _ htop), hsteps⟩
  | @attempt frame entity pending below record history outcome step answer judged =>
      obtain ⟨hstack, hsteps⟩ := h fun other hother =>
        hnamed other (mem_steps_advance.2 (.inl hother))
      have hframe : frame.state.ending = none := hstack _ List.mem_cons_self
      have hchild : ∀ child, step.child? = some child → child.state.ending = none := by
        intro child hchild
        have hstep := hnamed step (mem_steps_advance.2 (.inr rfl))
        rw [judged.child_eq_after hchild, Frame.state_after]
        refine Rule.ending_eq_none_of_named answer hframe (judged.not_isEnding_of_child hchild) ?_
        rw [judged.outcome_eq]
        exact hstep
      constructor
      · intro top htop
        rcases mem_stack_advance.1 htop with ⟨child, hsome, rfl⟩ | hold
        · exact hchild child hsome
        · rcases List.mem_cons.1 hold with rfl | hbelow
          · exact hframe
          · exact hstack top (List.mem_cons_of_mem _ hbelow)
      · intro other hother
        rcases mem_steps_advance.1 hother with hold | rfl
        · exact hsteps other hold
        · rw [judged.frame_eq]
          exact ⟨hframe, hchild⟩

theorem Accounted.closes_iff_named (h : walk.Accounted rules config)
    (hopen : walk.Named → walk.Open) : walk.Closes rules config ↔ walk.Named := by
  constructor
  · intro hcloses step hstep hfired hending
    have hrefuses : Rule.Refuses rules step.next := Rule.refuses_iff.2 (by simp [hending])
    have hmeaning := (hcloses.agrees step hstep).2 ⟨hfired, hrefuses⟩
    obtain ⟨entity, record, outcome, -, judged⟩ := h.answered step hstep
    have hends := judged.meaning_eq_ending_iff.1 hmeaning
    rw [judged.outcome_eq] at hends
    obtain ⟨ending, hnext, hname⟩ := View.isComplete_iff.1 hends.2
    exact hname (Option.some.inj (hnext.symm.trans hending))
  · intro hnamed
    refine ⟨?_, hopen hnamed, ?_⟩
    · intro step hstep
      obtain ⟨entity, record, outcome, -, judged⟩ := h.answered step hstep
      rw [judged.meaning_eq_ending_iff, judged.outcome_eq]
      refine and_congr_right fun hfired => ?_
      rw [Rule.refuses_iff]
      exact World.isComplete_iff_of_ne (hnamed step hstep hfired)
    · intro step hstep rule hrule hended
      have hfired : step.rule?.isSome := by simp [hrule]
      exact h.recorded step hstep rule hrule
        ((World.isComplete_iff_of_ne (hnamed step hstep hfired)).2 hended)

end Walk

/-! ## Accepted stories -/

namespace Story

/-- What a rule of a story leaves behind is read off the rule that has its summary. -/
theorem Consistent.named_iff {story : Story} {root : Text} (h : story.Consistent root)
    {config : Config} {walk : Walk World} (haccounted : walk.Accounted story.rules config) :
    walk.Named ↔ ∀ step ∈ walk.steps, ∀ rule ∈ story.rules,
      step.rule? = some rule.summary → rule.ending? ≠ some "" := by
  refine forall₂_congr fun step hstep => ?_
  obtain ⟨entity, record, outcome, answer, judged⟩ := haccounted.answered step hstep
  have houtcome := judged.outcome_eq
  subst houtcome
  constructor
  · intro hnamed rule hrule hfired
    obtain ⟨other, hother, hsummary, hending⟩ := Rule.exists_ending_of_fired answer hfired
    have hsame := List.inj_on_of_nodup_map h.summaries_distinct hother hrule hsummary
    rw [← hsame, ← hending]
    exact hnamed (by simp [hfired])
  · intro hnamed hfired
    obtain ⟨fired, hfired⟩ := Option.isSome_iff_exists.1 hfired
    obtain ⟨rule, hrule, rfl, hending⟩ := Rule.exists_ending_of_fired answer hfired
    dsimp only at hending
    rw [hending]
    exact hnamed rule hrule hfired

/-- Rules and walk agree on where an accepted story is over, unless a rule that fires on
the walk leaves the ending without a name behind. -/
theorem closes_iff (config : Config) (document : Json) (root : Text) (story : Story)
    (hload : load document root = .ok story) :
    ∃ walk, Walk.Finished (Rule.engine story.rules) config story.manifest.startWorld walk ∧
      (walk.Closes story.rules config ↔
        ∀ step ∈ walk.steps, ∀ rule ∈ story.rules,
          step.rule? = some rule.summary → rule.ending? ≠ some "") := by
  have hconsistent := consistent_of_load hload
  obtain ⟨record, hbuild⟩ :=
    Rule.exists_build hconsistent.exists_attempt config story.manifest.startWorld
  obtain ⟨walk, hfinished, -⟩ := Walk.build_finished hbuild
  have haccounted : walk.Accounted story.rules config :=
    hfinished.turns.keeps (fun _ _ turn => turn.accounted) (Walk.accounted_fresh _)
  have hopen : walk.Named → walk.Open :=
    hfinished.turns.keeps (P := fun walk => walk.Named → walk.Open)
      (fun _ _ turn => turn.open_) fun _ => Walk.open_fresh rfl
  refine ⟨walk, hfinished, ?_⟩
  rw [haccounted.closes_iff_named hopen]
  exact hconsistent.named_iff haccounted

theorem umbrella_closes :
    load umbrella.toJson "Begining" = .ok umbrella ∧
    ∃ walk, Walk.Finished (Rule.engine umbrella.rules) {} umbrella.manifest.startWorld walk ∧
      walk.Closes umbrella.rules {} ∧ walk.record.completed = [Walk.umbrellaPath] := by
  obtain ⟨walk, hfinished, hcloses⟩ := closes_iff {} _ "Begining" umbrella load_umbrella
  have hnamed : ∀ rule ∈ umbrella.rules, rule.ending? ≠ some "" := by decide
  refine ⟨load_umbrella, walk, hfinished, ?_, ?_⟩
  · exact hcloses.2 fun _ _ rule hrule _ => hnamed rule hrule
  · rw [← hfinished.fst_explore]
    decide

def silent : Story where
  title := "Silence"
  manifest :=
    { items := []
      locations := ["Home"]
      characters := []
      startLocation := "Home"
      itemPlacement := ∅
      characterPlacement := ∅
      startScene := "start" }
  rules := [
    { summary := "End"
      trigger := "Home"
      preconditions := []
      effects := [⟨.setEnding, "", none⟩]
      priority := 0 }]

def silentEnd : Step World where
  frame := ⟨[], silent.manifest.startWorld, "Begining"⟩
  entity := "Home"
  next := { silent.manifest.startWorld with ending := some "" }
  meaning := .progress ⟨"Begining", "End", "black"⟩

/-- The walk goes on from a state where every interaction is refused. -/
theorem not_forall_closes :
    ¬ ∀ (config : Config) (document : Json) (root : Text) (story : Story),
      load document root = .ok story → ∀ walk,
        Walk.Finished (Rule.engine story.rules) config story.manifest.startWorld walk →
        walk.Closes story.rules config := by
  intro h
  have hload : load silent.toJson "Begining" = .ok silent := by decide +kernel
  obtain ⟨walk, hfinished, hstep⟩ : ∃ walk, Walk.Finished (Rule.engine silent.rules) {}
      silent.manifest.startWorld walk ∧ silentEnd ∈ walk.steps :=
    ⟨_, Walk.finished_of_explore rfl, by decide⟩
  have hcloses := h {} _ _ silent hload walk hfinished
  have hgoes := (hcloses.goes_on.steps silentEnd hstep).2 _ rfl
  cases hgoes

end Story

end Playthrough
