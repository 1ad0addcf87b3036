import OnTheFly.Proofs.ModelCheck.Bounded.Turns
import OnTheFly.Proofs.ModelCheck.Soundness
import OnTheFly.Proofs.Strategy.EventLog

/-!
Contract: a limit on the iterations of a bounded search only cuts it short.

Owns: the comparison, step by step, of two searches that differ in how many
iterations they may make. They go together until the one with fewer iterations
has used them up, and there the other one starts again.

The limit is read in one place, when the stack is empty and something is
deferred. Everything before that place is the same for both, and a search that
stops there makes no further step. Nothing is assumed of the state space, the
automaton or the boundary.
-/

set_option autoImplicit false

namespace OnTheFly

variable {R : RuleSystem}

/-! ## The same run with another limit -/

/-- The configuration with another limit on the iterations. -/
def Config.withCap (config : Config) (cap : Nat) : Config :=
  { config with maxIterations := cap }

theorem Acceptor.isView_id {A : Type} [Acceptor R A] : Acceptor.IsView R (id : A → A) where
  prepare _ _ := rfl
  notify _ _ _ := rfl
  cancels _ _ _ := rfl
  addCounterExample _ _ := rfl
  done _ := rfl
  message _ := rfl

/-- The run with another limit on the iterations. -/
def Exploration.withCap {A : Type} (run : Exploration R A) (cap : Nat) : Exploration R A :=
  run.map id (·.withCap cap)

def Stretch.withCap {S A : Type} (stretch : Stretch R S A) (cap : Nat) : Stretch R S A :=
  stretch.map id (·.withCap cap)

/-- The explorer with another limit on the iterations. -/
def Explorer.withCap (explorer : Explorer) (cap : Nat) : Explorer :=
  { explorer with config := explorer.config.withCap cap }

/-- What a play leaves behind, with another limit on the iterations. -/
def Played.withCap {S A : Type} (played : Played R S A) (cap : Nat) : Played R S A :=
  { played with explorer := played.explorer.withCap cap }

namespace BoundedSearch

/-! ## Where the limit is read -/

/-- Whether a search is in one of its first `cap` iterations, and has nothing to
do once it has reported a counterexample. -/
structure Within (cap : Nat) (bounded : BoundedSearch) : Prop where
  iteration : bounded.iteration ≤ cap
  unreported {frame : Frame} : bounded.search.next = some frame →
    bounded.search.counterExample = none

/-- Whether a search walks back along `stack` in one of its first `cap`
iterations, with nothing reported. -/
structure Unwinds (cap : Nat) (stack : List Frame) (bounded : BoundedSearch) : Prop where
  iteration : bounded.iteration ≤ cap
  stack : bounded.search.stack = stack
  next : bounded.search.next = none
  unreported : bounded.search.counterExample = none

/-- Whether a search has run dry in iteration `cap` with something deferred and
nothing reported, so that only the limit keeps it from starting again. -/
structure StopsAt (cap : Nat) (bounded : BoundedSearch) : Prop where
  iteration : bounded.iteration = cap
  deferred : bounded.deferred ≠ []
  stack : bounded.search.stack = []
  next : bounded.search.next = none
  unreported : bounded.search.counterExample = none

section Retreat

variable {bounded after : BoundedSearch} {space : StateSpace R} {config : Config}
  {cap wider : Nat} {stack : List Frame}

/-- Two limits decide alike on a new iteration, unless it is the one after the
last of the lower limit. -/
theorem Unwinds.mayRestart (unwinds : bounded.Unwinds cap [])
    (limit : config.maxIterations = cap) (positive : 0 < cap) (above : wider = 0 ∨ cap ≤ wider) :
    bounded.mayRestart (config.withCap wider) = bounded.mayRestart config ∨
      (bounded.StopsAt cap ∧ bounded.mayRestart config = false ∧
        bounded.mayRestart (config.withCap wider) = true) := by
  have within := unwinds.iteration
  have limited : bounded.mayRestart config =
      (!bounded.deferred.isEmpty && decide (bounded.iteration < cap)) := by
    have nonzero : cap ≠ 0 := by omega
    simp [BoundedSearch.mayRestart, limit, nonzero]
  have widened : bounded.mayRestart (config.withCap wider) =
      (!bounded.deferred.isEmpty && decide (wider = 0 ∨ bounded.iteration < wider)) := by
    rw [Bool.decide_or]
    rfl
  rw [limited, widened]
  by_cases nothing : bounded.deferred = []
  · simp [nothing]
  by_cases less : bounded.iteration < cap
  · have lessToo : wider = 0 ∨ bounded.iteration < wider := by omega
    simp [less, lessToo]
  by_cases beyond : wider = 0 ∨ bounded.iteration < wider
  · have last : bounded.iteration = cap := by omega
    refine .inr ⟨⟨last, nothing, unwinds.stack, unwinds.next, unwinds.unreported⟩, ?_, ?_⟩
    · simp [less]
    · simp [nothing, beyond]
  · simp [less, beyond]

theorem restart_of_not_mayRestart (may : bounded.mayRestart config = false) :
    bounded.restart config = (.ok (), bounded) := by
  unfold restart
  rw [may]
  rfl

theorem restart_withCap (may : bounded.mayRestart (config.withCap wider) =
    bounded.mayRestart config) :
    bounded.restart (config.withCap wider) = bounded.restart config := by
  unfold restart
  rw [may]

theorem restart_frame (restart : bounded.restart config = (.ok (), after)) :
    after.search.product = bounded.search.product ∧ after.search.stack = bounded.search.stack := by
  rcases restart_cases restart with rfl | ⟨boundary, rfl⟩ <;> exact ⟨rfl, rfl⟩

theorem iteration_restart (may : bounded.mayRestart config = true) :
    (bounded.restart config).2.iteration = bounded.iteration + 1 := by
  unfold restart
  rw [may]
  simp only [Bool.not_true, Bool.false_eq_true, if_false]
  split <;> rfl

/-- Looking for a successor in vain and leaving the top frame is a part of the
walk back. -/
theorem Unwinds.back {top : Frame} {rest : List Frame} {moved left : BoundedSearch}
    (unwinds : bounded.Unwinds cap (top :: rest))
    (fresh : freshSuccessor space (bounded.search.product.outgoing top.state) bounded =
      (.ok none, moved))
    (leave : moved.leave top rest = (.ok (), left)) :
    left.Unwinds cap rest ∧ left.iteration = bounded.iteration := by
  have defers := (freshSuccessor_spec fresh).1.defers
  have round : moved.search.round = bounded.search.round := defers.touches.round
  have leaves : left.search.round = moved.search.round ∧ left.search.stack = rest ∧
      left.search.next = moved.search.next ∧
      left.search.counterExample = moved.search.counterExample := by
    unfold BoundedSearch.leave paintLeft setProduct at leave
    simp only at leave
    split at leave
    · split at leave
      · cases leave
      · cases leave
        exact ⟨rfl, rfl, rfl, rfl⟩
    · cases leave
      exact ⟨rfl, rfl, rfl, rfl⟩
  have iteration : left.iteration = bounded.iteration :=
    congrArg Round.iteration (leaves.1.trans round)
  refine ⟨⟨?_, leaves.2.1, ?_, ?_⟩, iteration⟩
  · rw [iteration]
    exact unwinds.iteration
  · exact leaves.2.2.1.trans (defers.next.trans unwinds.next)
  · exact leaves.2.2.2.trans (defers.counterExample.trans unwinds.unreported)

/-- Walks back with two limits are the same, unless the one with the lower limit
stops where the other one starts again. -/
theorem Unwinds.truncates (unwinds : bounded.Unwinds cap stack)
    (limit : config.maxIterations = cap) (positive : 0 < cap) (above : wider = 0 ∨ cap ≤ wider) :
    retreat space (config.withCap wider) stack bounded = retreat space config stack bounded ∨
      ∃ stopped, stopped.StopsAt cap ∧ stopped.iteration = bounded.iteration ∧
        stopped.mayRestart (config.withCap wider) = true ∧
        retreat space config stack bounded = (.ok (), stopped) ∧
        retreat space (config.withCap wider) stack bounded =
          stopped.restart (config.withCap wider) := by
  induction stack generalizing bounded with
  | nil =>
      unfold retreat
      rcases unwinds.mayRestart limit positive above with same | ⟨stops, rests, may⟩
      · exact .inl (restart_withCap same)
      · exact .inr ⟨bounded, stops, rfl, may, restart_of_not_mayRestart rests, rfl⟩
  | cons top rest inductionHypothesis =>
      unfold retreat
      split
      · exact .inl rfl
      · exact .inl rfl
      · rename_i moved fresh
        cases leave : moved.leave top rest with
        | mk result left =>
            cases result with
            | error breach => exact .inl rfl
            | ok _ =>
                obtain ⟨onward, iteration⟩ := unwinds.back fresh leave
                rw [← iteration]
                exact inductionHypothesis onward

/-- A walk back stays within the limit. -/
theorem Unwinds.within (unwinds : bounded.Unwinds cap stack)
    (limit : config.maxIterations = cap) (positive : 0 < cap)
    (walk : retreat space config stack bounded = (.ok (), after)) : after.Within cap := by
  induction stack generalizing bounded with
  | nil =>
      unfold retreat at walk
      cases may : bounded.mayRestart config with
      | false =>
          rw [restart_of_not_mayRestart may] at walk
          cases walk
          exact ⟨unwinds.iteration, fun _ => unwinds.unreported⟩
      | true =>
          have iteration := iteration_restart may
          have less : bounded.iteration < cap := by
            have nonzero : cap ≠ 0 := by omega
            simp only [BoundedSearch.mayRestart, limit, nonzero, decide_false, Bool.false_or,
              Bool.and_eq_true, decide_eq_true_eq] at may
            exact may.2
          rw [walk] at iteration
          rcases restart_cases walk with rfl | ⟨boundary, rfl⟩
          · exact ⟨unwinds.iteration, fun _ => unwinds.unreported⟩
          · exact ⟨iteration.trans_le less, fun _ => unwinds.unreported⟩
  | cons top rest inductionHypothesis =>
      rcases retreat_cases walk with ⟨frame, moved, fresh, rfl⟩ |
        ⟨moved, left, fresh, leave, onward⟩
      · have defers := (freshSuccessor_spec fresh).1.defers
        have iteration : moved.iteration = bounded.iteration :=
          congrArg Round.iteration defers.touches.round
        constructor
        · exact iteration.trans_le unwinds.iteration
        · intro _ _
          exact defers.counterExample.trans unwinds.unreported
      · exact inductionHypothesis (unwinds.back fresh leave).1 onward

end Retreat

/-! ## One step with two limits -/

theorem expandOnce_frame {search opened : Search} {space : StateSpace R} {state : ProductStateId}
    (expand : search.expandOnce space state = .ok opened) :
    opened.round = search.round ∧ opened.next = search.next ∧
      opened.counterExample = search.counterExample := by
  unfold Search.expandOnce Search.expand at expand
  split at expand
  · cases expand
    exact ⟨rfl, rfl, rfl⟩
  · split at expand
    · cases expand
      exact ⟨rfl, rfl, rfl⟩
    · split at expand
      · cases expand
      · cases expand
        exact ⟨rfl, rfl, rfl⟩

/-- A search that has entered its next frame and looked at its transitions may
walk back. -/
theorem Within.explored {bounded explored : BoundedSearch} {space : StateSpace R} {cap : Nat}
    {frame : Frame} {entered : Search} {found : Bool} (within : bounded.Within cap)
    (next : bounded.search.next = some frame) (enters : bounded.search.enter frame = .ok entered)
    (explores : ({ bounded with search := entered }).exploreState space frame.state =
      (.ok found, explored)) : explored.Unwinds cap explored.search.stack := by
  have entering : entered.round = bounded.search.round ∧ entered.next = none ∧
      entered.counterExample = bounded.search.counterExample := by
    unfold Search.enter at enters
    split at enters
    · cases enters
    · cases enters
      exact ⟨rfl, rfl, rfl⟩
  obtain ⟨opened, passed, expand, look, isExplored⟩ := exploreState_eq_ok explores
  obtain ⟨round, nextOpened, reportOpened⟩ := expandOnce_frame expand
  have defers := (findCycle_spec look).1.defers
  have search : explored.search.round = passed.search.round ∧
      explored.search.next = passed.search.next ∧
      explored.search.counterExample = passed.search.counterExample := by
    rw [isExplored]
    cases found <;> exact ⟨rfl, rfl, rfl⟩
  have iteration : explored.iteration = bounded.iteration :=
    congrArg Round.iteration
      (search.1.trans (defers.touches.round.trans (round.trans entering.1)))
  constructor
  · rw [iteration]
    exact within.iteration
  · rfl
  · exact search.2.1.trans (defers.next.trans (nextOpened.trans entering.2.1))
  · exact search.2.2.trans (defers.counterExample.trans
      (reportOpened.trans (entering.2.2.trans (within.unreported next))))

variable {A : Type} [Acceptor R A]

/-- How a step with the limit `cap` compares with one that has the limit `wider`.
They do the same, or the first one stops because of its limit while the second
one starts again, which fails if the boundary cannot be relaxed. -/
inductive Truncates (cap wider : Nat) : Except Failure StateId × BoundedSearch × Exploration R A →
    Except Failure StateId × BoundedSearch × Exploration R A → Prop where
  | same (result : Except Failure StateId) (after : BoundedSearch) (later : Exploration R A) :
      Truncates cap wider (result, after, later) (result, after, later.withCap wider)
  | restarts {state : StateId} {stopped moved : BoundedSearch} {later : Exploration R A}
      (stops : stopped.StopsAt cap)
      (may : stopped.mayRestart (later.withCap wider).config = true)
      (restart : stopped.restart (later.withCap wider).config = (.ok (), moved)) :
      Truncates cap wider (.ok state, stopped, later)
        (.ok state, moved,
          (later.withCap wider).track ({ · with iteration := moved.iteration }))
  | breaks {state : StateId} {stopped moved : BoundedSearch} {later : Exploration R A}
      {breach : Breach} (stops : stopped.StopsAt cap)
      (may : stopped.mayRestart (later.withCap wider).config = true)
      (restart : stopped.restart (later.withCap wider).config = (.error breach, moved)) :
      Truncates cap wider (.ok state, stopped, later)
        (.error (.breach breach), moved, later.withCap wider)

section Step

variable {bounded : BoundedSearch} {run : Exploration R A} {cap wider : Nat}

/-- What a step that processes `state` gives, after it has moved on. -/
def answered (state : StateId) : Except Breach Unit × BoundedSearch × Exploration R A →
    Except Failure StateId × BoundedSearch × Exploration R A
  | (.error breach, bounded, run) => (.error (.breach breach), bounded, run)
  | (.ok _, bounded, run) => (.ok state, bounded, run)

theorem Unwinds.proceed_truncates (unwinds : bounded.Unwinds cap bounded.search.stack)
    (limit : run.config.maxIterations = cap) (positive : 0 < cap)
    (above : wider = 0 ∨ cap ≤ wider) (found : Bool) (state : StateId) :
    Truncates cap wider (answered state (bounded.proceed run found))
      (answered state (bounded.proceed (run.withCap wider) found)) := by
  unfold proceed
  cases found with
  | true => exact .same _ _ _
  | false =>
      simp only [Bool.false_eq_true, if_false]
      rw [show (run.withCap wider).config = run.config.withCap wider from rfl,
        show (run.withCap wider).space = run.space from rfl]
      rcases unwinds.truncates limit positive above with
        same | ⟨stopped, stops, iteration, may, rests, restarts⟩
      · rw [same]
        cases retreat run.space run.config bounded.search.stack bounded with
        | mk answer moved =>
            cases answer with
            | error breach => exact .same _ _ _
            | ok _ =>
                simp only
                split <;> exact .same _ _ _
      · -- The search that goes on notes its new iteration, the other one has none to note.
        have onward := iteration_restart may
        rw [rests, restarts]
        simp only [iteration, if_true]
        cases restart : stopped.restart (run.config.withCap wider) with
        | mk answer moved =>
            rw [restart, iteration] at onward
            cases answer with
            | error breach => exact .breaks stops may restart
            | ok _ =>
                have apart : moved.iteration ≠ bounded.iteration := by
                  change moved.iteration = bounded.iteration + 1 at onward
                  omega
                simp only [apart, if_false]
                exact .restarts stops may restart

theorem Within.arrive_truncates (within : bounded.Within cap) {frame : Frame}
    (next : bounded.search.next = some frame) (limit : run.config.maxIterations = cap)
    (positive : 0 < cap) (above : wider = 0 ∨ cap ≤ wider) :
    Truncates cap wider (bounded.arrive frame run) (bounded.arrive frame (run.withCap wider)) := by
  unfold arrive
  cases enters : bounded.search.enter frame with
  | error breach => exact .same _ _ _
  | ok entered =>
      simp only
      generalize tracked : run.track ({ · with stackDepth := entered.stack.length }) = now
      have trackedToo : (run.withCap wider).track
          ({ · with stackDepth := entered.stack.length }) = now.withCap wider := by
        rw [← tracked]
        rfl
      have limitNow : now.config.maxIterations = cap := by
        rw [← tracked]
        exact limit
      rw [trackedToo, show (now.withCap wider).space = now.space from rfl]
      cases explores : ({ bounded with search := entered } : BoundedSearch).exploreState now.space
          frame.state with
      | mk result explored =>
          cases result with
          | error breach => exact .same _ _ _
          | ok found =>
              exact (within.explored next enters explores).proceed_truncates limitNow positive
                above found _

/-- A step with the limit `cap` does what it does with a higher limit or without
one, unless it is the last step of iteration `cap`. -/
theorem Within.doNext_truncates (within : bounded.Within cap)
    (limit : run.config.maxIterations = cap) (positive : 0 < cap)
    (above : wider = 0 ∨ cap ≤ wider) :
    Truncates cap wider (bounded.doNext run) (bounded.doNext (run.withCap wider)) := by
  cases next : bounded.search.next with
  | none =>
      unfold doNext
      rw [next]
      exact .same _ _ _
  | some frame =>
      have advanced := Exploration.advances_closeState run
        (bounded.search.product.systemState frame.state)
      have closes : (run.withCap wider).closeUp (bounded.search.product.systemState frame.state) =
          _ := Exploration.closeUp_map Acceptor.isView_id run _
      rw [doNext_eq_arrive next, doNext_eq_arrive next, closes]
      change run.Advances (run.closeUp (bounded.search.product.systemState frame.state)).2
        at advanced
      cases outcome : run.closeUp (bounded.search.product.systemState frame.state) with
      | mk result later =>
          rw [outcome] at advanced
          cases result with
          | error failure => exact .same _ _ _
          | ok _ =>
              have limitLater : later.config.maxIterations = cap := by
                rw [advanced.config]
                exact limit
              exact within.arrive_truncates next limitLater positive above

/-- A step stays within the limit. -/
theorem Within.stepped (within : bounded.Within cap) {state : StateId} {after : BoundedSearch}
    {later : Exploration R A} (limit : run.config.maxIterations = cap) (positive : 0 < cap)
    (step : bounded.doNext run = (.ok state, after, later)) :
    after.Within cap ∧ later.config = run.config := by
  cases next : bounded.search.next with
  | none =>
      unfold doNext at step
      rw [next] at step
      cases step
      exact ⟨within, rfl⟩
  | some frame =>
      obtain ⟨_, _, config, turns⟩ := doNext_turns next step
      refine ⟨?_, config⟩
      cases turns with
      | reports enters explores =>
          have unwinds := within.explored next enters explores
          exact ⟨unwinds.iteration, nofun⟩
      | walks enters explores walk =>
          exact (within.explored next enters explores).within limit positive walk

end Step

/-! ## Whole runs with two limits -/

theorem prepare_within {bounded ready : BoundedSearch} {run opened : Exploration R A} {cap : Nat}
    (positive : 0 < cap) (prepare : Strategy.prepare bounded run = (.ok (), ready, opened)) :
    ready.Within cap ∧ opened.config = run.config := by
  have prepared := strategy_prepare.1 prepare
  unfold BoundedSearch.prepare Search.reset at prepared
  cases installed : bounded.search.automaton with
  | none =>
      rw [installed] at prepared
      cases prepared
  | some automaton =>
      rw [installed] at prepared
      cases prepared
      exact ⟨⟨positive, fun _ => rfl⟩, rfl⟩

theorem prepare_withCap (bounded : BoundedSearch) (run : Exploration R A) (cap : Nat) :
    Strategy.prepare bounded (run.withCap cap) =
      ((Strategy.prepare bounded run).1, (Strategy.prepare bounded run).2.1,
        (Strategy.prepare bounded run).2.2.withCap cap) := by
  unfold Strategy.prepare instStrategy prepare
  simp only
  rw [show (run.withCap cap).start = run.start from rfl]
  cases bounded.search.reset run.start <;> rfl

/-- What a run with the limit `wider` has done when the run with the limit `cap`
has made the steps of `trail`. It has made the same steps and is in the same
state, so that the next steps can be compared. Or the other run has stopped
because of its limit, and this one has made the same last step but starts again
in it, which fails if the boundary cannot be relaxed. -/
inductive Shadowed (bounded : BoundedSearch) (begun : Exploration R A) (cap wider : Nat)
    (trail : List (BoundedSearch × StateId)) (last : BoundedSearch) (final : Exploration R A) :
    Prop where
  | abreast (made : Made bounded (begun.withCap wider) trail last (final.withCap wider))
      (next : Truncates cap wider (last.doNext final) (last.doNext (final.withCap wider)))
  | restarted {moved : BoundedSearch} {later : Exploration R A} (stops : last.StopsAt cap)
      (restart : last.restart (begun.withCap wider).config = (.ok (), moved))
      (iteration : moved.iteration = cap + 1)
      (product : moved.search.product = last.search.product)
      (stack : moved.search.stack = last.search.stack)
      (made : Made bounded (begun.withCap wider) trail moved later)
      (space : later.space = final.space) (acceptor : later.acceptor = final.acceptor)
  | broken {earlier : List (BoundedSearch × StateId)} {current moved : BoundedSearch}
      {state : StateId} {now later : Exploration R A} {breach : Breach}
      (stops : last.StopsAt cap)
      (restart : last.restart (begun.withCap wider).config = (.error breach, moved))
      (lastStep : trail = earlier ++ [(current, state)])
      (made : Made bounded (begun.withCap wider) earlier current now)
      (step : current.doNext now = (.error (.breach breach), moved, later))
      (space : later.space = final.space) (acceptor : later.acceptor = final.acceptor)

section Run

variable {bounded current : BoundedSearch} {begun now : Exploration R A} {cap wider : Nat}
  {trail : List (BoundedSearch × StateId)}

theorem StopsAt.not_hasNext (stops : bounded.StopsAt cap) :
    Strategy.hasNext R bounded = false := by
  change bounded.search.next.isSome = false
  rw [stops.next]
  rfl

/-- From runs that are abreast, what a step of the one leads to is shadowed by
the other. -/
theorem Shadowed.step {after : BoundedSearch} {state : StateId} {later : Exploration R A}
    (positive : 0 < cap) (above : wider = 0 ∨ cap ≤ wider) (within : after.Within cap)
    (config : later.config = begun.config.withCap cap)
    (made : Made bounded (begun.withCap wider) trail current (now.withCap wider))
    (more : Strategy.hasNext R current = true)
    (truncates : Truncates cap wider (.ok state, after, later)
      (current.doNext (now.withCap wider))) :
    bounded.Shadowed begun cap wider (trail ++ [(current, state)]) after later := by
  have limit : later.config.maxIterations = cap := by
    rw [config]
    rfl
  have widened : (later.withCap wider).config = (begun.withCap wider).config := by
    change later.config.withCap wider = begun.config.withCap wider
    rw [config]
    rfl
  generalize outcome : current.doNext (now.withCap wider) = answer at truncates
  cases truncates with
  | same =>
      exact .abreast (made.stepped more outcome) (within.doNext_truncates limit positive above)
  | restarts stops may restart =>
      have onward := iteration_restart may
      rw [restart, stops.iteration] at onward
      rw [widened] at restart
      obtain ⟨product, stack⟩ := restart_frame restart
      exact .restarted stops restart onward product stack (made.stepped more outcome) rfl rfl
  | breaks stops may restart =>
      rw [widened] at restart
      exact .broken stops restart rfl made outcome rfl rfl

theorem Shadowed.observed {last : BoundedSearch} {final : Exploration R A}
    (shadowed : bounded.Shadowed begun cap wider trail last final) (change : Progress → Progress)
    (truncates : Truncates cap wider (last.doNext (final.track change))
      (last.doNext ((final.track change).withCap wider))) :
    bounded.Shadowed begun cap wider trail last (final.track change) := by
  cases shadowed with
  | abreast made _ => exact .abreast (made.observed change) truncates
  | restarted stops restart iteration product stack made space acceptor =>
      exact .restarted stops restart iteration product stack made space acceptor
  | broken stops restart lastStep made step space acceptor =>
      exact .broken stops restart lastStep made step space acceptor

/-- Every run with the limit `cap` is shadowed by the run with the limit
`wider`. -/
theorem made_shadowed (positive : 0 < cap) (above : wider = 0 ∨ cap ≤ wider)
    (made : Made bounded (begun.withCap cap) trail current now) :
    current.Within cap ∧ now.config = begun.config.withCap cap ∧
      bounded.Shadowed begun cap wider trail current now := by
  induction made with
  | @prepared ready opened prepare =>
      obtain ⟨within, config⟩ := prepare_within positive prepare
      have limit : opened.config.maxIterations = cap := by
        rw [config]
        rfl
      have prepareToo : Strategy.prepare bounded (begun.withCap wider) =
          (.ok (), ready, opened.withCap wider) := by
        have widened := prepare_withCap bounded (begun.withCap cap) wider
        rw [prepare] at widened
        exact widened
      exact ⟨within, config, .abreast (.prepared prepareToo)
        (within.doNext_truncates limit positive above)⟩
  | @stepped trail current next now later state _ more step inductionHypothesis =>
      obtain ⟨within, config, shadowed⟩ := inductionHypothesis
      have limit : now.config.maxIterations = cap := by
        rw [config]
        rfl
      have stepped : current.doNext now = (.ok state, next, later) := step
      obtain ⟨withinNext, same⟩ := within.stepped limit positive stepped
      refine ⟨withinNext, same.trans config, ?_⟩
      cases shadowed with
      | abreast made truncates =>
          rw [stepped] at truncates
          exact .step positive above withinNext (same.trans config) made more truncates
      | restarted stops =>
          rw [stops.not_hasNext] at more
          cases more
      | broken stops =>
          rw [stops.not_hasNext] at more
          cases more
  | @observed trail current now change _ inductionHypothesis =>
      obtain ⟨within, config, shadowed⟩ := inductionHypothesis
      have limit : (now.track change).config.maxIterations = cap := by
        change now.config.maxIterations = cap
        rw [config]
        rfl
      exact ⟨within, config,
        shadowed.observed change (within.doNext_truncates limit positive above)⟩

/-- As many steps with either limit come to the same end, unless those with the
limit `cap` stop because of it. -/
theorem Within.takeSteps_truncates (positive : 0 < cap) (above : wider = 0 ∨ cap ≤ wider)
    (allowance steps : Nat) (within : current.Within cap)
    (limit : now.config.maxIterations = cap) :
    takeSteps allowance steps current (now.withCap wider) =
        (takeSteps allowance steps current now).withCap wider ∨
      (takeSteps allowance steps current now).strategy.StopsAt cap := by
  induction allowance generalizing steps current now with
  | zero => exact .inl rfl
  | succ allowance inductionHypothesis =>
      have truncates := within.doNext_truncates limit positive above
      change Truncates cap wider (Strategy.doNext current now)
        (Strategy.doNext current (now.withCap wider)) at truncates
      have onward (state : StateId) (after : BoundedSearch) (later : Exploration R A)
          (step : Strategy.doNext current now = (.ok state, after, later)) :
          after.Within cap ∧ later.config.maxIterations = cap := by
        obtain ⟨withinAfter, config⟩ := within.stepped limit positive step
        exact ⟨withinAfter, config ▸ limit⟩
      unfold takeSteps
      rw [show (now.withCap wider).acceptor = now.acceptor from rfl,
        show (now.withCap wider).mustStop = now.mustStop from rfl]
      split
      · exact .inl rfl
      split
      · exact .inl rfl
      split
      · exact .inl rfl
      generalize Strategy.doNext current now = answer at truncates onward
      generalize Strategy.doNext current (now.withCap wider) = answerToo at truncates
      cases truncates with
      | same result after later =>
          cases result with
          | ok state =>
              obtain ⟨withinAfter, limitLater⟩ := onward state after later rfl
              have limitTracked :
                  (later.track ({ · with steps := steps + 1 })).config.maxIterations = cap :=
                limitLater
              exact inductionHypothesis (steps + 1) withinAfter limitTracked
          | error failure =>
              cases failure with
              | error error => cases error <;> exact .inl rfl
              | breach breach => exact .inl rfl
      | restarts stops =>
          simp only
          rw [takeSteps_of_not_hasNext stops.not_hasNext]
          exact .inr stops
      | breaks stops =>
          simp only
          rw [takeSteps_of_not_hasNext stops.not_hasNext]
          exact .inr stops

theorem playRun_truncates (positive : 0 < cap) (above : wider = 0 ∨ cap ≤ wider)
    (allowance : Nat) (bounded : BoundedSearch) (begun : Exploration R A) :
    playRun allowance bounded (begun.withCap wider) =
        (playRun allowance bounded (begun.withCap cap)).withCap wider ∨
      (playRun allowance bounded (begun.withCap cap)).strategy.StopsAt cap := by
  have widened : Strategy.prepare bounded (begun.withCap wider) = _ :=
    prepare_withCap bounded (begun.withCap cap) wider
  unfold playRun
  rw [widened]
  cases prepare : Strategy.prepare bounded (begun.withCap cap) with
  | mk result rest =>
      obtain ⟨ready, opened⟩ := rest
      cases result with
      | error error => cases error <;> exact .inl rfl
      | ok _ =>
          obtain ⟨within, config⟩ := prepare_within positive prepare
          have limit : opened.config.maxIterations = cap := by
            rw [config]
            rfl
          exact within.takeSteps_truncates positive above allowance 0 limit

/-- Plays with either limit leave the same behind, unless the one with the limit
`cap` stops because of it. -/
theorem play_truncates (positive : 0 < cap) (above : wider = 0 ∨ cap ≤ wider)
    (explorer : Explorer) (allowance : Nat) (bounded : BoundedSearch) (space : StateSpace R)
    (start : Option StateId) (acceptor : A) :
    (explorer.withCap wider).play allowance bounded space start acceptor =
        ((explorer.withCap cap).play allowance bounded space start acceptor).withCap wider ∨
      ((explorer.withCap cap).play allowance bounded space start acceptor).strategy.StopsAt
        cap := by
  have begins (limit : Nat) : Exploration.begin space (Acceptor.prepare space acceptor)
      (explorer.config.withCap limit) explorer.progress explorer.stopRequested
      (start.getD StateSpace.startState) =
        (Exploration.begin space (Acceptor.prepare space acceptor) explorer.config
          explorer.progress explorer.stopRequested
          (start.getD StateSpace.startState)).map (·.withCap limit) := by
    unfold Exploration.begin
    split <;> rfl
  unfold Explorer.play Explorer.withCap
  simp only
  rw [begins, begins]
  cases Exploration.begin space (Acceptor.prepare space acceptor) explorer.config
      explorer.progress explorer.stopRequested (start.getD StateSpace.startState) with
  | error error => exact .inl rfl
  | ok begun =>
      simp only [Except.map]
      rcases playRun_truncates positive above allowance bounded begun with same | stops
      · left
        rw [same]
        unfold Stretch.withCap
        rw [outcome_map Acceptor.isView_id]
        rfl
      · exact .inr stops

end Run

end BoundedSearch

/-- A limit on the iterations only cuts a bounded search short. Every step that
the search makes with the limit `cap` is made with a higher limit and without
one as well, and leaves the same behind. The search with the limit stops only
where it stops otherwise too, or in iteration `cap`, where it starts again
otherwise. So a play that reports a counterexample reports it with the higher
limit as well, in the same iteration and after the same steps. -/
theorem iteration_limit_only_cuts_short {A : Type} [Acceptor R A] (bounded : BoundedSearch)
    {cap wider : Nat} (positive : 0 < cap) (above : wider = 0 ∨ cap ≤ wider) :
    (∀ (begun : Exploration R A) (trail : List (BoundedSearch × StateId)) (last : BoundedSearch)
        (final : Exploration R A), Made bounded (begun.withCap cap) trail last final →
      last.iteration ≤ cap ∧ bounded.Shadowed begun cap wider trail last final) ∧
    ∀ (explorer : Explorer) (allowance : Nat) (space : StateSpace R) (start : Option StateId)
        (acceptor : A),
      ((explorer.withCap wider).play allowance bounded space start acceptor =
          ((explorer.withCap cap).play allowance bounded space start acceptor).withCap wider ∨
        ((explorer.withCap cap).play allowance bounded space start acceptor).strategy.StopsAt
          cap) ∧
      ∀ path, ((explorer.withCap cap).play allowance bounded space start
          acceptor).strategy.search.counterExample = some path →
        (explorer.withCap wider).play allowance bounded space start acceptor =
          ((explorer.withCap cap).play allowance bounded space start acceptor).withCap wider := by
  constructor
  · intro begun trail last final made
    obtain ⟨within, _, shadowed⟩ := BoundedSearch.made_shadowed positive above made
    exact ⟨within.iteration, shadowed⟩
  · intro explorer allowance space start acceptor
    have truncates := BoundedSearch.play_truncates positive above explorer allowance bounded space
      start acceptor
    refine ⟨truncates, fun path reported => ?_⟩
    rcases truncates with same | stops
    · exact same
    · rw [stops.unreported] at reported
      cases reported

/-- The search from the hub with a limit on the iterations. -/
def forkLimited (cap : Nat) : Stretch forkSystem.rules BoundedSearch CounterExamples :=
  playRun 20 (BoundedSearch.create returnAutomaton (Boundary.ruleSet ["leave"]) true)
    (forkRun.withCap cap)

/-- A play from the hub with a limit on the iterations. -/
def forkPlayed (cap : Nat) : Played forkSystem.rules BoundedSearch CounterExamples :=
  (({} : Explorer).withCap cap).play 20
    (BoundedSearch.create returnAutomaton (Boundary.ruleSet ["leave"]) true)
    (StateSpace.create forkSystem.rules {}) none {}

/-- One iteration is not enough to come back to the hub, and the search without
a limit starts again where the one with this limit stops. With two iterations a
counterexample is reported, and the play without a limit is the same. -/
theorem forkSystem_cut_short :
    (forkLimited 1).strategy.StopsAt 1 ∧
      (∃ trail moved later,
        Made (BoundedSearch.create returnAutomaton (Boundary.ruleSet ["leave"]) true)
          (forkRun.withCap 1) trail (forkLimited 1).strategy (forkLimited 1).run ∧
        Made (BoundedSearch.create returnAutomaton (Boundary.ruleSet ["leave"]) true)
          (forkRun.withCap 0) trail moved later ∧
        moved.iteration = 2 ∧ later.space = (forkLimited 1).run.space) ∧
      (forkPlayed 2).strategy.iteration = 2 ∧
      (forkPlayed 2).strategy.search.counterExample = some [⟨0⟩, ⟨2⟩, ⟨0⟩, ⟨1⟩] ∧
      forkPlayed 0 = (forkPlayed 2).withCap 0 := by
  have stops : (forkLimited 1).strategy.StopsAt 1 :=
    ⟨by decide +kernel, by decide +kernel, by decide +kernel, by decide +kernel,
      by decide +kernel⟩
  have reported : (forkPlayed 2).strategy.search.counterExample = some [⟨0⟩, ⟨2⟩, ⟨0⟩, ⟨1⟩] := by
    decide +kernel
  have ending : (forkLimited 1).ending = .ended .exhausted 2 := by decide +kernel
  obtain ⟨trail, made, _, _⟩ := playRun_exhausted_made ending
  obtain ⟨_, shadowed⟩ := (iteration_limit_only_cuts_short
    (BoundedSearch.create returnAutomaton (Boundary.ruleSet ["leave"]) true) Nat.one_pos
    (.inl rfl : 0 = 0 ∨ 1 ≤ 0)).1 forkRun trail _ _ made
  obtain ⟨_, same⟩ := (iteration_limit_only_cuts_short
    (BoundedSearch.create returnAutomaton (Boundary.ruleSet ["leave"]) true) Nat.two_pos
    (.inl rfl : 0 = 0 ∨ 2 ≤ 0)).2 {} 20 (StateSpace.create forkSystem.rules {}) none
      ({} : CounterExamples)
  refine ⟨stops, ?_, by decide +kernel, reported, same _ reported⟩
  cases shadowed with
  | abreast madeToo _ =>
      exact absurd (BoundedSearch.deferred_of_made rfl rfl madeToo stops.next stops.unreported)
        stops.deferred
  | restarted _ _ iteration _ _ madeToo space _ =>
      exact ⟨trail, _, _, made, madeToo, iteration, space⟩
  | broken _ restart =>
      have relaxed :
          ((forkLimited 1).strategy.restart (forkRun.withCap 0).config).1.isOk = true := by
        decide +kernel
      change ((forkLimited 1).strategy.restart (forkRun.withCap 0).config) = _ at restart
      rw [restart] at relaxed
      cases relaxed

end OnTheFly
