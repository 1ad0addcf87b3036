import Mathlib.Logic.Relation
import OnTheFly.Proofs.Exploration.Agreement
import OnTheFly.Proofs.Exploration.Steps
import OnTheFly.Proofs.ModelCheck.Bounded.Run

/-!
Contract: the steps of the bounded search as one relation on the search and its
state space.

Owns: that a step depends on nothing else and has one result, so that two plays
from the same beginning go the same way and one of them is ahead of the other;
and the parts of which a step consists.
-/

set_option autoImplicit false

namespace OnTheFly

namespace BoundedSearch

open Relation

variable {R : RuleSystem}

/-- The search after it has reported its stack. -/
def reported (bounded : BoundedSearch) : BoundedSearch :=
  { bounded with
    search := { bounded.search with
      counterExample := some (bounded.search.path.map bounded.search.product.systemState)
      next := none } }

/-- What a step makes of a search, once the system state of the next frame is
closed. -/
inductive Turns (bounded : BoundedSearch) (space : StateSpace R) (config : Config)
    (frame : Frame) : BoundedSearch → Prop where
  | reports {entered : Search} {explored : BoundedSearch}
      (enters : bounded.search.enter frame = .ok entered)
      (explores : ({ bounded with search := entered }).exploreState space frame.state =
        (.ok true, explored)) :
      Turns bounded space config frame explored.reported
  | walks {entered : Search} {explored after : BoundedSearch}
      (enters : bounded.search.enter frame = .ok entered)
      (explores : ({ bounded with search := entered }).exploreState space frame.state =
        (.ok false, explored))
      (walk : retreat space config explored.search.stack explored = (.ok (), after)) :
      Turns bounded space config frame after

theorem Turns.parts {bounded after : BoundedSearch} {space : StateSpace R} {config : Config}
    {frame : Frame} (turns : Turns bounded space config frame after) :
    ∃ entered found explored, bounded.search.enter frame = .ok entered ∧
      ({ bounded with search := entered }).exploreState space frame.state =
        (.ok found, explored) ∧
      (found = true → after = explored.reported) ∧
      (found = false → retreat space config explored.search.stack explored = (.ok (), after)) := by
  cases turns with
  | reports enters explores => exact ⟨_, true, _, enters, explores, fun _ => rfl, nofun⟩
  | walks enters explores walk => exact ⟨_, false, _, enters, explores, nofun, fun _ => walk⟩

theorem Turns.unique {bounded first second : BoundedSearch} {space : StateSpace R}
    {config : Config} {frame : Frame} (one : Turns bounded space config frame first)
    (other : Turns bounded space config frame second) : first = second := by
  obtain ⟨entered, found, explored, enters, explores, reports, walks⟩ := one.parts
  obtain ⟨_, _, _, entersAgain, exploresAgain, reportsAgain, walksAgain⟩ := other.parts
  rw [enters] at entersAgain
  cases entersAgain
  rw [explores] at exploresAgain
  cases exploresAgain
  cases found with
  | true => rw [reports rfl, reportsAgain rfl]
  | false => exact congrArg Prod.snd ((walks rfl).symm.trans (walksAgain rfl))

section Step

variable {A : Type} [Acceptor R A] {bounded after : BoundedSearch} {run later : Exploration R A}
  {frame : Frame}

/-- A step that succeeds closes the system state and takes a turn. -/
theorem doNext_turns {state : StateId} (next : bounded.search.next = some frame)
    (step : bounded.doNext run = (.ok state, after, later)) :
    (∃ applied,
      (run.closeState (bounded.search.product.systemState frame.state)).1 = .ok applied) ∧
      later.space = (run.closeState (bounded.search.product.systemState frame.state)).2.space ∧
      later.config = run.config ∧ Turns bounded later.space run.config frame after := by
  have advanced := Exploration.advances_closeState run
    (bounded.search.product.systemState frame.state)
  unfold doNext at step
  rw [next] at step
  simp only at step
  split at step
  · cases step
  · rename_i applied closing close
    rw [close] at advanced
    have config : closing.config = run.config := advanced.config
    rw [close]
    split at step
    · cases step
    · rename_i entered enters
      simp only [Exploration.track] at step
      split at step
      · cases step
      · rename_i found explored explores
        unfold proceed at step
        cases found with
        | true =>
            cases step
            exact ⟨⟨applied, rfl⟩, rfl, config, .reports enters explores⟩
        | false =>
            simp only [Bool.false_eq_true, if_false] at step
            cases walk : retreat closing.space closing.config explored.search.stack explored with
            | mk result moved =>
                rw [walk] at step
                cases result with
                | error breach => cases step
                | ok _ =>
                    rw [config] at walk
                    simp only [Prod.mk.injEq] at step
                    obtain ⟨_, rfl, rfl⟩ := step
                    refine ⟨⟨applied, rfl⟩, ?_, ?_, ?_⟩
                    · split <;> rfl
                    · split <;> exact config
                    · split <;> exact .walks enters explores walk

/-- If the system state can be closed, a turn is a step. -/
theorem doNext_of_turns (next : bounded.search.next = some frame) {applied : List Applied}
    (closes :
      (run.closeState (bounded.search.product.systemState frame.state)).1 = .ok applied)
    (turns : Turns bounded
      (run.closeState (bounded.search.product.systemState frame.state)).2.space run.config frame
      after) :
    ∃ state later, bounded.doNext run = (.ok state, after, later) := by
  have advanced := Exploration.advances_closeState run
    (bounded.search.product.systemState frame.state)
  unfold doNext
  rw [next]
  cases close : run.closeState (bounded.search.product.systemState frame.state) with
  | mk result closing =>
      rw [close] at closes turns advanced
      cases closes
      simp only [close]
      cases turns with
      | reports enters explores =>
          simp only [enters, Exploration.track, explores]
          exact ⟨_, _, rfl⟩
      | walks enters explores walk =>
          rw [← advanced.config] at walk
          simp only [enters, Exploration.track, explores, proceed, Bool.false_eq_true, if_false,
            walk]
          exact ⟨_, _, rfl⟩

/-- A search whose system state cannot be closed stays as it is. -/
theorem doNext_error {error : ExploreError}
    (step : bounded.doNext run = (.error (.error error), after, later)) : after = bounded := by
  unfold doNext at step
  split at step
  · cases step
  · simp only at step
    split at step
    · cases step
      rfl
    · split at step
      · cases step
      · split at step
        · cases step
        · split at step <;> cases step

/-- A turn enters the frame, looks at its transitions, and reports a cycle or
walks back. -/
theorem Invariant.turned {automaton : Automaton} {initial : ProductStateId} {root : ProductPoint}
    {config : Config} (invariant : bounded.Invariant run automaton initial root)
    (next : bounded.search.next = some frame)
    (systemClosed : run.space.isClosed (bounded.search.product.systemState frame.state) = true)
    (turns : Turns bounded run.space config frame after) :
    ∃ opened passed found,
      (bounded.search.entered frame).expandOnce run.space frame.state = .ok opened ∧
      opened.Coherent automaton initial run.space ∧ Search.Enters frame bounded.search opened ∧
      findCycle run.space (opened.product.outgoing frame.state) { bounded with search := opened } =
        (.ok found, passed) ∧
      if found = true then after = passed.reported
      else (passed.completed frame.state).Walking automaton initial run.space ∧
        retreat run.space config passed.search.stack (passed.completed frame.state) =
          (.ok (), after) := by
  obtain ⟨_, _, _, unreported⟩ := invariant.faithful.coherent.pending next
  obtain ⟨entered, found, explored, enter, explores, reports, walks⟩ := turns.parts
  rw [invariant.faithful.coherent.enter_eq next] at enter
  cases enter
  obtain ⟨opened, passed, expand, look, rfl⟩ := exploreState_eq_ok explores
  obtain ⟨coherent, enters⟩ := expandOnce_enters invariant.faithful.history.wellFormed
    (invariant.knows unreported) (invariant.closed unreported) next systemClosed expand
  refine ⟨opened, passed, found, expand, coherent, enters, look, ?_⟩
  cases found with
  | true => exact reports rfl
  | false =>
      obtain ⟨_, knows, closed, stopped, _⟩ := invariant.completes next systemClosed explores
      exact ⟨⟨knows, closed, stopped⟩, walks rfl⟩

end Step

/-- A step of the bounded search, apart from what it tells the acceptor. -/
inductive Goes (config : Config) :
    BoundedSearch × StateSpace R → BoundedSearch × StateSpace R → Prop where
  | step {A : Type} [Acceptor R A] {run : Exploration R A} {bounded after : BoundedSearch}
      {frame : Frame} {applied : List Applied} (next : bounded.search.next = some frame)
      (closes :
        (run.closeState (bounded.search.product.systemState frame.state)).1 = .ok applied)
      (turns : Turns bounded
        (run.closeState (bounded.search.product.systemState frame.state)).2.space config frame
        after) :
      Goes config (bounded, run.space)
        (after, (run.closeState (bounded.search.product.systemState frame.state)).2.space)

/-- A step is the same in every run over the state space. -/
theorem Goes.turns {A : Type} [Acceptor R A] {config : Config} {bounded : BoundedSearch}
    {run : Exploration R A} {target : BoundedSearch × StateSpace R}
    (goes : Goes config (bounded, run.space) target) :
    ∃ frame applied, bounded.search.next = some frame ∧
      (run.closeState (bounded.search.product.systemState frame.state)).1 = .ok applied ∧
      target.2 = (run.closeState (bounded.search.product.systemState frame.state)).2.space ∧
      Turns bounded target.2 config frame target.1 := by
  generalize isSource : (bounded, run.space) = source at goes
  cases goes with
  | @step B _ other searching after frame applied next closes turns =>
      obtain rfl : bounded = searching := congrArg Prod.fst isSource
      obtain ⟨sameResult, sameSpace⟩ := Exploration.closeState_agrees (congrArg Prod.snd isSource)
        (bounded.search.product.systemState frame.state)
      exact ⟨frame, applied, next, sameResult.trans closes, sameSpace.symm, turns⟩

theorem Goes.unique {config : Config} :
    Relator.RightUnique (Goes config : BoundedSearch × StateSpace R → _ → Prop) := by
  intro source first second one other
  cases one with
  | @step A _ run bounded after frame applied next closes turns =>
      obtain ⟨again, _, nextAgain, _, space, turnsAgain⟩ := other.turns
      rw [next] at nextAgain
      cases nextAgain
      rw [space] at turnsAgain
      exact Prod.ext (turns.unique turnsAgain) space.symm

theorem Goes.evolves {config : Config} {source target : BoundedSearch × StateSpace R}
    (goes : Goes config source target) : source.2.Evolves target.2 := by
  cases goes with
  | step next closes turns => exact (Exploration.advances_closeState _ _).space

/-! ## Plays -/

section Play

variable {A : Type} [Acceptor R A] {bounded after last : BoundedSearch}
  {run now final : Exploration R A} {trail whole : List (BoundedSearch × StateId)}

theorem prepare_of_made (made : Made bounded run trail after now) :
    ∃ ready opened, bounded.prepare run = .ok (ready, opened) := by
  induction made with
  | prepared prepared => exact ⟨_, _, strategy_prepare.1 prepared⟩
  | stepped _ _ _ inductionHypothesis => exact inductionHypothesis
  | observed _ _ inductionHypothesis => exact inductionHypothesis

/-- The configuration of a run stays, and no events are left between steps. -/
theorem made_settings (quiet : run.space.events = []) (made : Made bounded run trail after now) :
    now.config = run.config ∧ now.space.events = [] := by
  induction made with
  | prepared prepared =>
      have prepare := strategy_prepare.1 prepared
      unfold BoundedSearch.prepare at prepare
      split at prepare <;> cases prepare
      exact ⟨rfl, quiet⟩
  | @stepped _ current next now later state _ more step inductionHypothesis =>
      obtain ⟨frame, isNext⟩ := strategy_hasNext.1 more
      obtain ⟨⟨applied, closes⟩, space, config, _⟩ := doNext_turns isNext step
      rw [space]
      exact ⟨config.trans inductionHypothesis.1, Exploration.events_closeState closes⟩
  | observed _ _ inductionHypothesis => exact inductionHypothesis

/-- The steps of a play lead from the prepared search on. -/
theorem made_goes {ready : BoundedSearch} {opened : Exploration R A}
    (prepare : bounded.prepare run = .ok (ready, opened)) (quiet : run.space.events = [])
    (made : Made bounded run trail after now) :
    ReflTransGen (Goes run.config) (ready, run.space) (after, now.space) := by
  induction made with
  | prepared prepared =>
      have again := strategy_prepare.1 prepared
      rw [prepare] at again
      cases again
      unfold BoundedSearch.prepare at prepare
      split at prepare <;> cases prepare
      exact .refl
  | @stepped _ current next now later state before more step inductionHypothesis =>
      obtain ⟨frame, isNext⟩ := strategy_hasNext.1 more
      obtain ⟨⟨applied, closes⟩, space, _, turns⟩ := doNext_turns isNext step
      rw [space, (made_settings quiet before).1] at turns
      rw [space]
      exact inductionHypothesis.tail (.step isNext closes turns)
  | observed _ _ inductionHypothesis => exact inductionHypothesis

/-- A play that has come to its end is ahead of all others from the same
beginning. -/
theorem ahead_of_ended (quiet : run.space.events = [])
    (made : Made bounded run trail after now) (ended : Made bounded run whole last final)
    (dry : last.search.next = none) :
    ReflTransGen (Goes run.config) (after, now.space) (last, final.space) := by
  obtain ⟨ready, opened, prepare⟩ := prepare_of_made made
  rcases ReflTransGen.total_of_right_unique Goes.unique (made_goes prepare quiet made)
    (made_goes prepare quiet ended) with ahead | behind
  · exact ahead
  · -- Nothing comes after the end.
    rcases ReflTransGen.cases_head behind with same | ⟨_, goes, _⟩
    · rw [same]
    · obtain ⟨_, _, next, _⟩ := goes.turns
      rw [dry] at next
      cases next

/-- A search that is not at the end of a play that comes to its end makes a
step. -/
theorem doNext_of_ended (quiet : run.space.events = [])
    (made : Made bounded run trail after now) (ended : Made bounded run whole last final)
    (dry : last.search.next = none) {frame : Frame} (more : after.search.next = some frame) :
    ∃ state next later, after.doNext now = (.ok state, next, later) := by
  have ahead := ahead_of_ended quiet made ended dry
  rcases ReflTransGen.cases_head ahead with same | ⟨target, goes, _⟩
  · obtain rfl : after = last := congrArg Prod.fst same
    rw [dry] at more
    cases more
  · obtain ⟨found, applied, next, closes, space, turns⟩ := goes.turns
    rw [space, ← (made_settings quiet made).1] at turns
    obtain ⟨state, later, step⟩ := doNext_of_turns next closes turns
    exact ⟨state, _, later, step⟩

theorem evolves_of_goes {config : Config} {source target : BoundedSearch × StateSpace R}
    (path : ReflTransGen (Goes config) source target) : source.2.Evolves target.2 := by
  induction path with
  | refl => exact .refl
  | tail _ goes inductionHypothesis => exact inductionHypothesis.trans goes.evolves

/-- There is one end to come to. -/
theorem ended_unique (quiet : run.space.events = []) (made : Made bounded run trail after now)
    (stopped : after.search.next = none) (ended : Made bounded run whole last final)
    (dry : last.search.next = none) : after = last := by
  rcases ReflTransGen.cases_head (ahead_of_ended quiet made ended dry) with same | ⟨_, goes, _⟩
  · exact congrArg Prod.fst same
  · obtain ⟨_, _, next, _⟩ := goes.turns
    rw [stopped] at next
    cases next

/-- A search that has come to its end without a limit on the iterations has
reported a counterexample, or has nothing deferred. -/
theorem deferred_of_made (unlimited : run.config.maxIterations = 0)
    (quiet : run.space.events = []) (made : Made bounded run trail after now)
    (stopped : after.search.next = none) (unreported : after.search.counterExample = none) :
    after.deferred = [] := by
  induction made with
  | prepared prepared =>
      have prepare := strategy_prepare.1 prepared
      unfold BoundedSearch.prepare at prepare
      split at prepare <;> cases prepare
      rfl
  | @stepped _ current next now later state before more step inductionHypothesis =>
      obtain ⟨frame, isNext⟩ := strategy_hasNext.1 more
      obtain ⟨_, _, _, turns⟩ := doNext_turns isNext step
      rw [(made_settings quiet before).1] at turns
      cases turns with
      | reports _ _ => cases unreported
      | walks _ _ walk => exact retreat_deferred unlimited walk stopped
  | observed _ _ inductionHypothesis => exact inductionHypothesis stopped unreported

end Play

/-- A play that ends with nothing next has made all steps of its search. -/
theorem play_made_of_dry {A : Type} [Acceptor R A] {explorer : Explorer} {allowance : Nat}
    {bounded : BoundedSearch} {space : StateSpace R} {start : Option StateId} {acceptor : A}
    {automaton : Automaton} (installed : bounded.search.automaton = some automaton)
    {outcome : Outcome}
    (ended : (explorer.play allowance bounded space start acceptor).outcome = some (.ok outcome))
    (dry : (explorer.play allowance bounded space start acceptor).strategy.search.next = none)
    {begun : Exploration R A} (begins : explorer.Begins space start acceptor begun) :
    ∃ trail final,
      Made bounded begun trail (explorer.play allowance bounded space start acceptor).strategy
        final ∧
      final.space = (explorer.play allowance bounded space start acceptor).space := by
  obtain ⟨_, _, _, contained, _⟩ := begins.spec
  obtain ⟨_, _, prepare⟩ := exists_prepare installed contained
  obtain ⟨trail, last, final, made, halts, _⟩ := playRun_made allowance prepare
  obtain ⟨sameOutcome, sameStrategy, sameSpace, _⟩ := begins.play allowance bounded
  rw [sameOutcome] at ended
  rw [sameStrategy] at dry ⊢
  rw [sameSpace]
  generalize playRun allowance bounded begun = stretch at halts ended dry ⊢
  cases halts with
  | unfinished => cases ended
  | accepted _ => exact ⟨trail, final, made, rfl⟩
  | exhausted _ => exact ⟨trail, final, made, rfl⟩
  | stopped _ => exact ⟨trail, final, made, rfl⟩
  | interrupted more step =>
      obtain ⟨frame, isNext⟩ := strategy_hasNext.1 more
      rw [show _ = last from doNext_error step, isNext] at dry
      cases dry
  | failed _ _ => cases ended

end BoundedSearch

end OnTheFly
