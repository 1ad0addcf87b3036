import Mathlib.Data.Set.Card
import OnTheFly.Acceptor.CounterExamples
import OnTheFly.Proofs.RuleSystem.Labelled
import OnTheFly.Proofs.Strategy.Closing

/-!
Contract: what an exhausted play of a closing strategy leaves behind.

Owns: that a play from the start state ends with the whole state space of the
rules, explored once; and which states a play from elsewhere leaves open.

A state from before the play is queued only along transitions from before the
play. From the start state these lead to all of them, from elsewhere not.
-/

set_option autoImplicit false

namespace OnTheFly

variable {R : RuleSystem} {A : Type} [Acceptor R A]

/-- A state space holds no more states than there are reachable graphs. -/
theorem StateSpace.HasHistory.size_le {space : StateSpace R} (history : space.HasHistory)
    (finite : { graph | R.Reachable graph }.Finite) :
    space.size ≤ { graph | R.Reachable graph }.ncard := by
  have present : ∀ position : Fin space.size, ∃ graph, space.graph? ⟨position⟩ = some graph := by
    intro position
    have contained : space.contains ⟨position⟩ = true := decide_eq_true position.isLt
    obtain ⟨info, found⟩ := StateSpace.contains_iff.1 contained
    exact ⟨info.graph, StateSpace.graph?_eq_some.2 ⟨info, found, rfl⟩⟩
  choose graphOf stored using present
  have injective : Function.Injective fun position : Fin space.size =>
      (⟨graphOf position, history.wellFormed.reachable (stored position)⟩ :
        { graph | R.Reachable graph }) := by
    intro first second same
    have sameGraph : graphOf first = graphOf second := congrArg Subtype.val same
    have sameState := history.wellFormed.stored_once (stored first) (sameGraph ▸ stored second)
    exact Fin.ext (congrArg StateId.index sameState)
  have := finite.to_subtype
  have bound := Nat.card_le_card_of_injective _ injective
  rwa [Nat.card_fin, Nat.card_coe_set_eq] at bound

namespace Closing

section Run

variable {begun final : Exploration R A} {closing current : Closing}
  {trail : List (Closing × StateId)}

omit [Acceptor R A] in
/-- A run over the whole state space visits each state of it once. -/
theorem Sweep.visited_perm {run : Exploration R A} {visited : List StateId}
    (sweep : Sweep begun visited current run) (history : begun.space.HasHistory)
    (fromStart : begun.start = StateSpace.startState) (stopped : current.next = none) :
    visited.Perm run.space.stateIds := by
  have distinct := sweep.distinct
  rw [sweep.idle stopped, List.append_nil] at distinct
  refine (List.perm_ext_iff_of_nodup distinct run.space.nodup_stateIds).2 fun state => ?_
  rw [StateSpace.mem_stateIds]
  constructor
  · exact fun member => ((sweep.visited_iff stopped state).1 member).1
  · intro contained
    cases before : begun.space.contains state with
    | false => exact sweep.visited_of_absent stopped contained before
    | true =>
        rw [sweep.visited_iff_connected stopped before, fromStart]
        exact history.connected before

/-- A run makes at most one step for each reachable graph. -/
theorem length_trail_le (keeps : closing.pool.KeepsAll) (history : begun.space.HasHistory)
    (contained : begun.space.contains begun.start = true)
    (fresh : ∀ state, begun.isKnown state = begun.space.contains state)
    (finite : { graph | R.Reachable graph }.Finite)
    (made : Made closing begun trail current final) :
    trail.length ≤ { graph | R.Reachable graph }.ncard := by
  have sweep := made_sweep keeps history contained fresh made
  have inside : trail.map (·.2) ⊆ final.space.stateIds := by
    intro state member
    exact StateSpace.mem_stateIds.2
      ((sweep.found state).1 (List.mem_append_left _ member)).1
  calc trail.length = (trail.map (·.2)).length := (List.length_map _).symm
    _ ≤ final.space.stateIds.length :=
        ((List.nodup_append.1 sweep.distinct).1.subperm inside).length_le
    _ = final.space.size := final.space.length_stateIds
    _ ≤ _ := (history.evolves sweep.evolves).size_le finite

end Run

end Closing

/-! ## Plays from the start state -/

/-- What a play from the start state leaves behind when nothing is left to do:
its last state space, after the applications in `log`, and the `states` that it
processed. -/
structure Complete (log : List (Application R)) (space : StateSpace R) (states : List StateId) :
    Prop where
  closed (state : StateId) : space.contains state = true → space.isClosed state = true
  /-- The stored graphs are the reachable ones. -/
  stored (graph : R.Graph) : R.Functional →
    (R.Reachable graph ↔ ∃ state, space.graph? state = some graph)
  chronicle : StateSpace.Chronicle log space
  /-- Every match of every state has been applied once. -/
  applied {state : StateId} {graph : R.Graph} : space.graph? state = some graph →
    (R.matchesOf graph).Perm ((applicationsAt log state).map (·.candidate))
  /-- Every application has added one transition, and there are no others. -/
  transitions : log.map (·.transition) = (List.range space.transitions.size).map TransitionId.mk
  processed : states.Perm space.stateIds

/-- A play from the start state that ends by itself leaves a complete state
space, whatever was there before it: its steps close every state once. Over
finitely many graphs whose matches can all be applied there is such an end
unless the acceptor has enough or the play has to stop. -/
theorem exhausted_play_completes_space {closing : Closing} (keeps : closing.pool.KeepsAll)
    {log : List (Application R)} {space : StateSpace R} (past : StateSpace.Chronicle log space)
    (explorer : Explorer) (allowance : Nat) {start : Option StateId}
    (fromStart : start.getD StateSpace.startState = StateSpace.startState) (acceptor : A) :
    (∀ outcome,
      (explorer.play allowance closing space start acceptor).outcome = some (.ok outcome) →
      outcome.termination = .exhausted →
      outcome.steps = (explorer.play allowance closing space start acceptor).space.size ∧
        ∃ more begun trail final, explorer.Begins space start acceptor begun ∧
          Made closing begun trail
            (explorer.play allowance closing space start acceptor).strategy final ∧
          final.space = (explorer.play allowance closing space start acceptor).space ∧
          Complete (log ++ more) (explorer.play allowance closing space start acceptor).space
            (trail.map (·.2))) ∧
      ({ graph | R.Reachable graph }.Finite → R.Succeeds space.engine →
        { graph | R.Reachable graph }.ncard < allowance →
        ∃ outcome,
          (explorer.play allowance closing space start acceptor).outcome = some (.ok outcome) ∧
          (Acceptor.done (R := R)
              (explorer.play allowance closing space start acceptor).acceptor = false →
            (explorer.config.heedsStop &&
              (explorer.play allowance closing space start acceptor).explorer.stopRequested) =
                false →
            outcome.termination = .exhausted)) := by
  have history : space.drainEvents.2.HasHistory := past.hasHistory.evolves (.single (.drain space))
  constructor
  · intro outcome ended exhausted
    obtain ⟨begun, trail, final, begins, made, sameSpace, length, finished⟩ :=
      Explorer.play_made ended exhausted
    obtain ⟨atSpace, atStart, _, contained, fresh⟩ := begins.spec
    rw [← atSpace] at history
    have sweep := Closing.made_sweep keeps history contained fresh made
    have stopped : (explorer.play allowance closing space start acceptor).strategy.next = none :=
      Option.not_isSome_iff_eq_none.1 (Bool.eq_false_iff.1 finished)
    have visits := sweep.visited_perm history (atStart.trans fromStart) stopped
    have closed : ∀ state, final.space.contains state = true →
        final.space.isClosed state = true := fun state inside =>
      sweep.closed (visits.mem_iff.2 (StateSpace.mem_stateIds.2 inside))
    have drained : StateSpace.Chronicle log begun.space := atSpace ▸ past.drain
    obtain ⟨more, chronicle⟩ := drained.evolves sweep.evolves
    rw [← sameSpace]
    refine ⟨?_, more, begun, trail, final, begins, made, rfl, closed, ?_, chronicle, ?_, ?_, visits⟩
    · rw [← length, ← List.length_map (·.2), visits.length_eq, StateSpace.length_stateIds]
    · exact fun graph functional => chronicle.hasHistory.reachable_iff functional closed graph
    · intro state graph stored
      obtain ⟨info, present, _⟩ := StateSpace.graph?_eq_some.1 stored
      exact chronicle.applied_of_isClosed stored
        (closed state (StateSpace.contains_of_info? present))
    · exact chronicle.accounted.handles
  · intro finite succeeds enough
    have stored := past.hasHistory.graph?_startState
    obtain ⟨info, present, _⟩ := StateSpace.graph?_eq_some.1 stored
    have inside : space.contains (start.getD StateSpace.startState) = true := by
      rw [fromStart]
      exact StateSpace.contains_of_info? present
    obtain ⟨begun, begins⟩ := explorer.begins_of_contains acceptor inside
    obtain ⟨atSpace, _, config, contained, fresh⟩ := begins.spec
    rw [← atSpace] at history
    have engine : R.Succeeds begun.space.engine := by
      rw [atSpace]
      exact succeeds
    have few : ∀ trail last final, Made closing begun trail last final →
        trail.length < allowance := fun _ _ _ made =>
      Nat.lt_of_le_of_lt (Closing.length_trail_le keeps history contained fresh finite made) enough
    obtain ⟨outcome, trail, final, ended, made, _, _, _, ends⟩ :=
      begins.play_ends allowance closing rfl few fun _ _ _ made more =>
        (Closing.made_sweep keeps history contained fresh made).doNext_succeeds history engine more
    refine ⟨outcome, ended, fun notDone notStopped => ends notDone ?_⟩
    rw [(Closing.made_sweep keeps history contained fresh made).config, config]
    exact notStopped

/-- The hub leads to both other nodes, and one of these to the other. -/
def detourSystem : LabelledSystem :=
  { nodes := #[{ name := "hub" }, { name := "stop" }, { name := "goal" }]
    edges := #[⟨⟨0⟩, "halt", ⟨1⟩⟩, ⟨⟨0⟩, "direct", ⟨2⟩⟩, ⟨⟨1⟩, "resume", ⟨2⟩⟩] }

/-- The first match of the hub has been applied. -/
def detourBegun : StateSpace detourSystem.rules :=
  ((StateSpace.create detourSystem.rules {}).applyMatch ⟨0⟩ 0).2

def detourWhole : Played detourSystem.rules Closing CounterExamples :=
  ({} : Explorer).play 10 .depthFirst detourBegun none {}

def detourLog : List (Application detourSystem.rules) :=
  [⟨⟨0⟩, (⟨0, "halt"⟩ : EdgeMatch), ⟨0⟩⟩]

theorem detourBegun_chronicle : StateSpace.Chronicle detourLog detourBegun := by
  have fresh : StateSpace.Chronicle [] (StateSpace.create detourSystem.rules {}) := .fresh _
  have outcome : (StateSpace.create detourSystem.rules {}).applyMatch ⟨0⟩ 0 =
      (.ok ⟨⟨0⟩, ⟨1⟩, true⟩, detourBegun) := rfl
  exact fresh.applied rfl outcome

/-- The play takes up what was begun and completes it. -/
theorem detourWhole_completes :
    StateSpace.Chronicle detourLog detourBegun ∧
      { graph | detourSystem.rules.Reachable graph }.Finite ∧ detourSystem.rules.Succeeds {} ∧
      detourSystem.rules.Functional ∧
      ∃ outcome, detourWhole.outcome = some (.ok outcome) ∧ outcome.termination = .exhausted ∧
        outcome.steps = 3 ∧ detourWhole.space.size = 3 ∧
        ∃ more states, Complete (detourLog ++ more) detourWhole.space states := by
  have succeeds : detourSystem.rules.Succeeds {} :=
    LabelledSystem.succeeds_of_calm fun rule => by rfl
  have enough : { graph | detourSystem.rules.Reachable graph }.ncard < 10 :=
    Nat.lt_of_le_of_lt LabelledSystem.ncard_reachable_le (by decide)
  have keeps : Closing.depthFirst.pool.KeepsAll := trivial
  have fromStart : (none : Option StateId).getD StateSpace.startState = StateSpace.startState := rfl
  obtain ⟨completes, ends⟩ := exhausted_play_completes_space keeps detourBegun_chronicle
    ({} : Explorer) 10 fromStart ({} : CounterExamples)
  obtain ⟨outcome, ended, byItself⟩ := ends LabelledSystem.finite_reachable succeeds enough
  have exhausted : outcome.termination = .exhausted :=
    byItself (by decide +kernel) (by decide +kernel)
  obtain ⟨steps, more, begun, trail, final, _, _, _, complete⟩ := completes outcome ended exhausted
  have size : detourWhole.space.size = 3 := by decide +kernel
  exact ⟨detourBegun_chronicle, LabelledSystem.finite_reachable, succeeds,
    detourSystem.functional, outcome, ended, exhausted, steps.trans size, size, more, _, complete⟩

/-! ## Plays from elsewhere -/

/-- An exhausted play leaves a state open if it was there and open before, and
no transitions from before led to it from where the play started. -/
theorem exhausted_play_closes_connected_states {closing : Closing}
    (keeps : closing.pool.KeepsAll) {space : StateSpace R} (history : space.HasHistory)
    {explorer : Explorer} {allowance : Nat} {start : Option StateId} {acceptor : A}
    {outcome : Outcome}
    (ended : (explorer.play allowance closing space start acceptor).outcome =
      some (.ok outcome)) (exhausted : outcome.termination = .exhausted) :
    (∀ state,
      (explorer.play allowance closing space start acceptor).space.contains state = true →
      ((explorer.play allowance closing space start acceptor).space.isClosed state = true ↔
        space.isClosed state = true ∨ space.contains state = false ∨
          space.Connected (start.getD StateSpace.startState) state)) ∧
      ((∀ state,
        (explorer.play allowance closing space start acceptor).space.Connected
            (start.getD StateSpace.startState) state →
          (explorer.play allowance closing space start acceptor).space.isClosed state = true) ↔
        ∀ state,
          (explorer.play allowance closing space start acceptor).space.Connected
            (start.getD StateSpace.startState) state →
          space.contains state = true → space.isClosed state = false →
          space.Connected (start.getD StateSpace.startState) state) := by
  obtain ⟨begun, trail, final, begins, made, sameSpace, _, finished⟩ :=
    Explorer.play_made ended exhausted
  obtain ⟨atSpace, atStart, _, contained, fresh⟩ := begins.spec
  have historyBegun : begun.space.HasHistory := by
    rw [atSpace]
    exact history.evolves (.single (.drain space))
  have sweep := Closing.made_sweep keeps historyBegun contained fresh made
  have stopped : (explorer.play allowance closing space start acceptor).strategy.next = none :=
    Option.not_isSome_iff_eq_none.1 (Bool.eq_false_iff.1 finished)
  rw [← sameSpace, ← atStart]
  have closed_iff : ∀ state, final.space.contains state = true →
      (final.space.isClosed state = true ↔ space.isClosed state = true ∨
        space.contains state = false ∨ space.Connected begun.start state) := by
    intro state inside
    have decides := sweep.isClosed_iff historyBegun stopped inside
    rw [atSpace] at decides
    exact decides
  have inside : ∀ state, final.space.Connected begun.start state →
      final.space.contains state = true := by
    intro state connected
    exact (historyBegun.evolves sweep.evolves).wellFormed.contains_of_connected
      ((sweep.evolves.continues historyBegun.wellFormed).kept.contains contained) connected
  refine ⟨closed_iff, ?_, ?_⟩
  · intro all state connected present isOpen
    rcases (closed_iff state (inside state connected)).1 (all state connected) with
      closed | absent | before
    · rw [closed] at isOpen
      cases isOpen
    · rw [absent] at present
      cases present
    · exact before
  · intro all state connected
    rw [closed_iff state (inside state connected)]
    cases closed : space.isClosed state with
    | true => exact .inl rfl
    | false =>
        cases present : space.contains state with
        | false => exact .inr (.inl rfl)
        | true => exact .inr (.inr (all state connected present closed))

/-- Both matches of the hub have been applied. -/
def detourLeft : StateSpace detourSystem.rules :=
  (detourBegun.applyMatch ⟨0⟩ 0).2

def detourPartial : Played detourSystem.rules Closing CounterExamples :=
  ({} : Explorer).play 10 .breadthFirst detourLeft (some ⟨1⟩) {}

theorem detourLeft_hasHistory : detourLeft.HasHistory :=
  detourBegun_chronicle.hasHistory.evolves (.single (.apply detourBegun ⟨0⟩ 0))

theorem detourPartial_exhausted :
    detourPartial.outcome = some (.ok ⟨.exhausted, 1, 3, "no counterexample found"⟩) := by
  decide +kernel

theorem detourPartial_connected : detourPartial.space.Connected ⟨1⟩ ⟨2⟩ := by
  refine .single ⟨⟨2⟩, ⟨⟨1⟩, ⟨2⟩, "resume"⟩, ?_, rfl⟩
  decide +kernel

/-- A play from the stop leads to the goal and does not close it, because the
goal was there before and no transition of before led there from the stop. -/
theorem exhausted_play_leaves_goal_open :
    detourLeft.HasHistory ∧
      detourPartial.outcome = some (.ok ⟨.exhausted, 1, 3, "no counterexample found"⟩) ∧
      detourPartial.space.Connected ⟨1⟩ ⟨2⟩ ∧ detourPartial.space.isClosed ⟨2⟩ = false :=
  ⟨detourLeft_hasHistory, detourPartial_exhausted, detourPartial_connected, by decide +kernel⟩

/-- The stop is closed and the goal is not, so the goal was not connected to
the stop before. -/
theorem detourPartial_closes_stop :
    detourLeft.HasHistory ∧ detourPartial.space.isClosed ⟨1⟩ = true ∧
      detourPartial.space.isClosed ⟨2⟩ = false ∧ ¬ detourLeft.Connected ⟨1⟩ ⟨2⟩ := by
  have keeps : Closing.breadthFirst.pool.KeepsAll := trivial
  obtain ⟨closes, _⟩ := exhausted_play_closes_connected_states keeps detourLeft_hasHistory
    detourPartial_exhausted rfl
  have goalOpen : detourPartial.space.isClosed ⟨2⟩ = false := by decide +kernel
  refine ⟨detourLeft_hasHistory, (closes ⟨1⟩ (by decide +kernel)).2 (.inr (.inr .refl)), goalOpen,
    fun connected => ?_⟩
  have closed := (closes ⟨2⟩ (by decide +kernel)).2 (.inr (.inr connected))
  exact Bool.false_ne_true (goalOpen.symm.trans closed)

end OnTheFly
