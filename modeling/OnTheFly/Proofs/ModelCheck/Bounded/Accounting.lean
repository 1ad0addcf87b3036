import OnTheFly.Proofs.ModelCheck.Bounded.Parts

/-!
Contract: how the bounded search keeps count of the frames that cross its
boundary.

Owns: that the depth of the boundary is the number of counted frames on the
path, when a transition is stopped, that therefore no part of a step meets a
breach other than a limit that cannot be relaxed, and that transitions are
deferred only in an iteration whose number is within the length of the path.
Does not own: what else the search knows of its path.

A boundary is asked with two limits: it lets the first `k - 2` crossings of
iteration `k` pass by itself, and the search grants one more. Taken together
they stop a crossing exactly if the path has `k - 1` already.
-/

set_option autoImplicit false

namespace OnTheFly

/-! ## Limits -/

namespace Limit

theorem Fits.mono {limit : Limit} {times bound : Nat} (fits : limit.Fits bound)
    (within : times ≤ bound) : limit.Fits times := by
  cases limit with
  | ruleSet forbidden => trivial
  | nodeCount initial step current =>
      have most : initial + bound * step < counterLimit := fits
      have less : times * step ≤ bound * step := Nat.mul_le_mul_right step within
      change initial + times * step < counterLimit
      omega

variable {R : RuleSystem}

/-- Whether a transition goes beyond the limit, however often that has happened
before. -/
def isCrossed (limit : Limit) (space : StateSpace R) (transition : Transition) : Bool :=
  match limit with
  | .nodeCount _ _ current => current < space.nodeCount transition.target
  | .ruleSet forbidden => forbidden.contains transition.rule

/-- Whether a step of the product goes beyond the limit. A step on which the
system stays put does not. -/
def crosses (limit : Limit) (space : StateSpace R) (via : Option TransitionId) : Bool :=
  (via.bind space.transition?).any (limit.isCrossed space)

theorem isSome_of_crosses {limit : Limit} {space : StateSpace R} {via : Option TransitionId}
    (crossed : limit.crosses space via = true) : via.isSome = true := by
  cases via with
  | none => cases crossed
  | some handle => rfl

end Limit

namespace Boundary

variable {R : RuleSystem} {boundary : Boundary}

theorem instantiate_limit (boundary : Boundary) :
    boundary.instantiate.limit = boundary.limit.relaxed 0 := by
  unfold instantiate Limit.relaxed
  cases boundary.limit <;> simp

/-- The boundary with the frames of a path taken into account. -/
def raised (boundary : Boundary) (frames : List Frame) : Boundary :=
  boundary.setDepth (boundary.depth + frames.countP (·.counted))

theorem map_raised_nil (boundary : Option Boundary) :
    boundary.map (·.raised []) = boundary := by
  cases boundary <;> rfl

theorem raised_cons (boundary : Boundary) (frame : Frame) (frames : List Frame) :
    (boundary.raised frames).raised [frame] = boundary.raised (frame :: frames) := by
  simp [raised, setDepth, List.countP_cons, Nat.add_assoc]

/-- An instance answers. A transition within the limit does not cross. One
beyond it crosses, unless the boundary lets it pass and counts it. -/
theorem crossing_spec (isInstance : boundary.prototype = false) (round : Round)
    (space : StateSpace R) (transition : Transition) (traverse : Bool) :
    ∃ crosses passed,
      boundary.crossing round space transition traverse = .ok (crosses, passed) ∧
        ((boundary.limit.isCrossed space transition = false ∧ crosses = false ∧
            passed = boundary) ∨
          (boundary.limit.isCrossed space transition = true ∧ crosses = true ∧
            passed = boundary) ∨
          (boundary.limit.isCrossed space transition = true ∧ crosses = false ∧
            boundary.depth < round.iteration - 2 ∧
            passed = if traverse then boundary.raiseDepth else boundary)) := by
  unfold crossing
  rw [if_neg (by simp [isInstance])]
  split
  · rename_i initial step current isCount
    have plain : boundary.limit.isCrossed space transition =
        decide (current < space.nodeCount transition.target) := by
      rw [isCount]
      rfl
    rw [← plain]
    cases crossed : boundary.limit.isCrossed space transition with
    | false => exact ⟨false, boundary, rfl, .inl ⟨rfl, rfl, rfl⟩⟩
    | true => exact ⟨true, boundary, rfl, .inr (.inl ⟨rfl, rfl, rfl⟩)⟩
  · rename_i forbidden isSet
    have plain : boundary.limit.isCrossed space transition =
        forbidden.contains transition.rule := by
      rw [isSet]
      rfl
    rw [← plain]
    cases crossed : boundary.limit.isCrossed space transition with
    | false => exact ⟨false, boundary, rfl, .inl ⟨rfl, rfl, rfl⟩⟩
    | true =>
        simp only [Bool.not_true, Bool.false_eq_true, if_false]
        by_cases spent : round.iteration - 2 ≤ boundary.depth
        · exact ⟨true, boundary, if_pos spent, .inr (.inl ⟨trivial, rfl, rfl⟩)⟩
        · exact ⟨false, _, if_neg spent,
            .inr (.inr ⟨trivial, rfl, Nat.lt_of_not_le spent, rfl⟩)⟩

/-- A transition that is traversed without crossing may be counted, and nothing
else changes. -/
theorem crossing_cases {round : Round} {space : StateSpace R} {transition : Transition}
    {traverse crosses : Bool} {passed : Boundary}
    (answer : boundary.crossing round space transition traverse = .ok (crosses, passed)) :
    passed = boundary ∨
      (traverse = true ∧ crosses = false ∧ passed = boundary.raiseDepth) := by
  unfold crossing at answer
  split at answer
  · cases answer
  · split at answer
    · cases answer
      exact .inl rfl
    · split at answer
      · cases answer
        exact .inl rfl
      · split at answer
        · cases answer
          exact .inl rfl
        · cases answer
          cases traverse with
          | false => exact .inl rfl
          | true => exact .inr ⟨rfl, rfl, rfl⟩

/-- A limit can be relaxed once more if it fits. -/
theorem increase_cases {limit : Limit} {times : Nat}
    (relaxed : boundary.limit = limit.relaxed times) :
    boundary.increase = .ok { boundary with limit := limit.relaxed (times + 1) } ∨
      (boundary.increase = .error .overflow ∧ ¬ limit.Fits (times + 1)) := by
  unfold increase
  rw [relaxed]
  cases limit with
  | ruleSet forbidden =>
      simp only [Limit.relaxed] at relaxed ⊢
      exact .inl (by rw [← relaxed])
  | nodeCount initial step current =>
      have sum : initial + times * step + step = initial + (times + 1) * step := by
        rw [Nat.succ_mul]
        omega
      simp only [Limit.relaxed, Limit.Fits, addCounters, sum]
      by_cases fits : initial + (times + 1) * step < counterLimit
      · rw [if_pos fits]
        exact .inl rfl
      · rw [if_neg fits]
        exact .inr ⟨rfl, fits⟩

/-- Whether a step crosses the boundary when the path has crossed it as often as
the iteration allows. -/
def stops (boundary : Boundary) (iteration : Nat) (space : StateSpace R)
    (via : Option TransitionId) : Bool :=
  boundary.limit.crosses space via && decide (iteration - 1 ≤ boundary.depth)

/-- The frame of a transition, counted if the transition crosses. -/
def frameOf (boundary : Boundary) (space : StateSpace R) (entry : ProductTransition) : Frame :=
  ⟨entry.target, entry.via, boundary.limit.crosses space entry.via⟩

end Boundary

namespace BoundedSearch

variable {R : RuleSystem}

/-- The frames of the path, with the one that is entered next. -/
def frames (bounded : BoundedSearch) : List Frame :=
  bounded.search.next.toList ++ bounded.search.stack

/-- The account of a search whose path has the frames. -/
structure Accounted (bounded : BoundedSearch) (frames : List Frame) (boundary : Boundary) :
    Prop where
  installed : bounded.boundary = some boundary
  isInstance : boundary.prototype = false
  limit : boundary.limit = bounded.prototype.limit.relaxed (bounded.iteration - 1)
  depth : boundary.depth = frames.countP (·.counted)
  moved : ∀ frame ∈ frames, frame.counted = true → frame.via.isSome = true
  bottom : ∀ frame, frames.getLast? = some frame → frame.counted = false
  first : 1 ≤ bounded.iteration

/-- The account of a search on whose path there can be at most `bound` frames.
Something may have been deferred only in the first `bound` iterations, so there
is at most one more. -/
structure Balanced (bounded : BoundedSearch) (frames : List Frame) (boundary : Boundary)
    (bound : Nat) : Prop extends bounded.Accounted frames boundary where
  deferring : bounded.deferred ≠ [] → bounded.iteration ≤ bound
  last : bounded.iteration ≤ bound + 1
  fits : bounded.prototype.limit.Fits bound

/-- What looking at transitions does to the account: something is deferred only
if the path has crossed the boundary as often as the iteration allows. -/
structure Looks (boundary : Boundary) (bounded after : BoundedSearch) : Prop where
  prototype : after.prototype = bounded.prototype
  iteration : after.iteration = bounded.iteration
  deferring : after.deferred = bounded.deferred ∨ bounded.iteration - 1 ≤ boundary.depth

section Parts

variable {space : StateSpace R} {bounded after : BoundedSearch} {frames : List Frame}
  {boundary : Boundary} {bound : Nat}

namespace Looks

theorem refl (boundary : Boundary) (bounded : BoundedSearch) : Looks boundary bounded bounded :=
  ⟨rfl, rfl, .inl rfl⟩

theorem trans {last : BoundedSearch} (first : Looks boundary bounded after)
    (second : Looks boundary after last) : Looks boundary bounded last where
  prototype := second.prototype.trans first.prototype
  iteration := second.iteration.trans first.iteration
  deferring := by
    rcases second.deferring with same | spent
    · rw [same]
      exact first.deferring
    · exact .inr (first.iteration ▸ spent)

end Looks

theorem defer_same (bounded : BoundedSearch) (handle : ProductTransitionId)
    (target : ProductStateId) :
    (bounded.defer handle target).prototype = bounded.prototype ∧
      (bounded.defer handle target).boundary = bounded.boundary := by
  unfold defer
  split
  · exact ⟨rfl, rfl⟩
  · simp only
    split <;> exact ⟨rfl, rfl⟩

/-- A transition is deferred when it is stopped. -/
theorem defer_looks {via : Option TransitionId}
    (stopped : boundary.stops bounded.iteration space via = true)
    (handle : ProductTransitionId) (target : ProductStateId) :
    Looks boundary bounded (bounded.defer handle target) where
  prototype := (defer_same bounded handle target).1
  iteration := congrArg Round.iteration (defer_spec bounded handle target).1.touches.round
  deferring := by
    rw [Boundary.stops, Bool.and_eq_true, decide_eq_true_eq] at stopped
    exact .inr stopped.2

namespace Accounted

/-- The bottom frame is not counted. -/
theorem depth_lt (accounted : bounded.Accounted frames boundary) (nonempty : frames ≠ [])
    (within : frames.length ≤ bound) : boundary.depth < bound := by
  have split := List.dropLast_concat_getLast nonempty
  have bottom : (frames.getLast nonempty).counted = false :=
    accounted.bottom _ (List.getLast?_eq_getLast_of_ne_nil nonempty)
  have counted : frames.countP (·.counted) = frames.dropLast.countP (·.counted) := by
    conv_lhs => rw [← split]
    rw [List.countP_append, List.countP_singleton, bottom]
    simp
  have most : frames.dropLast.countP (·.counted) ≤ frames.dropLast.length :=
    List.countP_le_length
  have positive := List.length_pos_iff.2 nonempty
  rw [List.length_dropLast] at most
  rw [accounted.depth, counted]
  omega

theorem same (accounted : bounded.Accounted frames boundary)
    (prototype : after.prototype = bounded.prototype)
    (sameBoundary : after.boundary = bounded.boundary)
    (iteration : after.iteration = bounded.iteration) : after.Accounted frames boundary where
  installed := sameBoundary.trans accounted.installed
  isInstance := accounted.isInstance
  limit := by rw [prototype, iteration, accounted.limit]
  depth := accounted.depth
  moved := accounted.moved
  bottom := accounted.bottom
  first := iteration ▸ accounted.first

/-- Another frame is put on a path, and the boundary takes account of it. -/
theorem push (accounted : bounded.Accounted frames boundary) (nonempty : frames ≠ [])
    {frame : Frame} (moved : frame.counted = true → frame.via.isSome = true) :
    ({ bounded with boundary := some (boundary.raised [frame]) } : BoundedSearch).Accounted
      (frame :: frames) (boundary.raised [frame]) where
  installed := rfl
  isInstance := accounted.isInstance
  limit := accounted.limit
  depth := by
    rw [List.countP_cons, ← accounted.depth]
    simp [Boundary.raised, Boundary.setDepth, List.countP_cons]
  moved := by
    intro other member
    rcases List.mem_cons.1 member with rfl | below
    · exact moved
    · exact accounted.moved other below
  bottom := by
    intro other isBottom
    rw [List.getLast?_cons_of_ne_nil nonempty] at isBottom
    exact accounted.bottom other isBottom
  first := accounted.first

/-- A transition may be looked at unless it is stopped. -/
theorem allows_eq (accounted : bounded.Accounted frames boundary) (space : StateSpace R)
    (handle : ProductTransitionId) (entry : ProductTransition) :
    bounded.allows space handle entry =
      if boundary.stops bounded.iteration space entry.via then
        (.ok false, bounded.defer handle entry.target)
      else (.ok true, bounded) := by
  unfold allows Boundary.stops Limit.crosses
  rw [accounted.installed]
  cases entry.via.bind space.transition? with
  | none => simp
  | some transition =>
      obtain ⟨crosses, passed, answer, outcome⟩ := Boundary.crossing_spec accounted.isInstance
        bounded.search.round space transition false
      simp only [answer, Option.any_some]
      rcases outcome with ⟨within, rfl, rfl⟩ | ⟨beyond, rfl, rfl⟩ | ⟨beyond, rfl, early, _⟩
      · simp [within]
      · by_cases spent : bounded.iteration - 1 ≤ passed.depth
        · simp [beyond, hasBudget, spent, Nat.not_lt.2 spent]
        · simp [beyond, hasBudget, spent, Nat.lt_of_not_le spent]
      · have unspent : ¬ bounded.iteration - 1 ≤ boundary.depth := by
          unfold iteration
          omega
        simp [unspent]

/-- Within the budget of an iteration that 64 bits can number, to raise the depth
is to increase it without an overflow. -/
theorem increaseDepth_of_hasBudget (budget : bounded.hasBudget boundary = true)
    (numbered : bounded.iteration ≤ counterLimit) :
    boundary.increaseDepth = .ok boundary.raiseDepth := by
  have fits : boundary.depth + 1 < counterLimit := by
    have within := of_decide_eq_true budget
    omega
  simp only [Boundary.increaseDepth, addCounters, fits, if_true]

/-- A transition passes, and its frame is counted if it crosses, unless it is
stopped. -/
theorem pass?_eq (accounted : bounded.Accounted frames boundary) (space : StateSpace R)
    (entry : ProductTransition) :
    bounded.pass? space entry =
      if boundary.stops bounded.iteration space entry.via then .ok (none, some boundary)
      else .ok (some (boundary.frameOf space entry),
        some (boundary.raised [boundary.frameOf space entry])) := by
  unfold pass? Boundary.stops Boundary.frameOf Limit.crosses
  rw [accounted.installed]
  cases entry.via.bind space.transition? with
  | none => simp [Boundary.raised, Boundary.setDepth]
  | some transition =>
      obtain ⟨crosses, passed, answer, outcome⟩ := Boundary.crossing_spec accounted.isInstance
        bounded.search.round space transition true
      simp only [answer, Option.any_some]
      rcases outcome with ⟨within, rfl, rfl⟩ | ⟨beyond, rfl, rfl⟩ | ⟨beyond, rfl, early, rfl⟩
      · simp [within, Boundary.raised, Boundary.setDepth]
      · by_cases spent : bounded.iteration - 1 ≤ passed.depth
        · simp [beyond, hasBudget, spent, Nat.not_lt.2 spent]
        · simp [beyond, hasBudget, spent, Nat.lt_of_not_le spent, Boundary.raised,
            Boundary.raiseDepth]
      · have unspent : ¬ bounded.iteration - 1 ≤ boundary.depth := by
          unfold iteration
          omega
        simp [beyond, unspent, Boundary.raised, Boundary.raiseDepth, Boundary.setDepth]

/-- Looking for a cycle always comes to an answer. A cycle is found at a
transition that is not stopped. -/
theorem findCycle (accounted : bounded.Accounted frames boundary) (space : StateSpace R)
    (entries : List (ProductTransitionId × ProductTransition)) :
    ∃ found after, BoundedSearch.findCycle space entries bounded = (.ok found, after) ∧
      after.Accounted frames boundary ∧ Looks boundary bounded after ∧
      (found = true → ∃ handle entry, (handle, entry) ∈ entries ∧
        after.search.closesCycle handle = true ∧
        boundary.stops bounded.iteration space entry.via = false) := by
  induction entries generalizing bounded with
  | nil => exact ⟨_, _, rfl, accounted, .refl boundary bounded, nofun⟩
  | cons head rest inductionHypothesis =>
      obtain ⟨handle, entry⟩ := head
      have later : ∀ {current : BoundedSearch}, current.Accounted frames boundary →
          Looks boundary bounded current → ∃ found after,
            BoundedSearch.findCycle space rest current = (.ok found, after) ∧
            after.Accounted frames boundary ∧ Looks boundary bounded after ∧
            (found = true → ∃ other seen, (other, seen) ∈ (handle, entry) :: rest ∧
              after.search.closesCycle other = true ∧
              boundary.stops bounded.iteration space seen.via = false) := by
        intro current accountedCurrent looks
        obtain ⟨found, after, answer, accountedAfter, looksAfter, yes⟩ :=
          inductionHypothesis accountedCurrent
        refine ⟨found, after, answer, accountedAfter, looks.trans looksAfter, fun isFound => ?_⟩
        obtain ⟨other, seen, member, closes, open_⟩ := yes isFound
        exact ⟨other, seen, List.mem_cons_of_mem _ member, closes, looks.iteration ▸ open_⟩
      unfold BoundedSearch.findCycle
      rw [accounted.allows_eq space handle entry]
      cases stopped : boundary.stops bounded.iteration space entry.via with
      | true =>
          obtain ⟨prototype, sameBoundary⟩ := defer_same bounded handle entry.target
          have looks := defer_looks stopped handle entry.target
          exact later (accounted.same prototype sameBoundary looks.iteration) looks
      | false =>
          cases closes : bounded.search.closesCycle handle with
          | true =>
              simp only [Bool.false_eq_true, if_false, closes, Bool.and_true, if_true]
              exact ⟨_, _, rfl, accounted, .refl boundary bounded,
                fun _ => ⟨handle, entry, List.mem_cons_self, closes, stopped⟩⟩
          | false =>
              simp only [Bool.false_eq_true, if_false, closes, Bool.and_false]
              exact later accounted (.refl boundary bounded)

/-- Looking for a successor to enter always comes to an answer. Its frame is
that of a transition which is not stopped; if there is none, all transitions to
unexplored states are stopped. -/
theorem freshSuccessor (accounted : bounded.Accounted frames boundary) (nonempty : frames ≠ [])
    (space : StateSpace R) (entries : List (ProductTransitionId × ProductTransition)) :
    ∃ passed after,
      BoundedSearch.freshSuccessor space entries bounded = (.ok passed, after) ∧
        after.Accounted (passed.toList ++ frames) (boundary.raised passed.toList) ∧
        Looks boundary bounded after ∧
        (∀ frame, passed = some frame → ∃ handle entry, (handle, entry) ∈ entries ∧
          frame = boundary.frameOf space entry ∧
          boundary.stops bounded.iteration space entry.via = false) ∧
        (passed = none → ∀ handle entry, (handle, entry) ∈ entries →
          bounded.isUnexplored entry.target = true →
          boundary.stops bounded.iteration space entry.via = true) := by
  induction entries generalizing bounded with
  | nil => exact ⟨none, _, rfl, accounted, .refl boundary bounded, nofun, by simp⟩
  | cons head rest inductionHypothesis =>
      obtain ⟨handle, entry⟩ := head
      have later : ∀ {current : BoundedSearch}, current.Accounted frames boundary →
          Looks boundary bounded current →
          (∀ state, current.isUnexplored state = bounded.isUnexplored state) →
          (bounded.isUnexplored entry.target = true →
            boundary.stops bounded.iteration space entry.via = true) →
          ∃ passed after,
            BoundedSearch.freshSuccessor space rest current = (.ok passed, after) ∧
            after.Accounted (passed.toList ++ frames) (boundary.raised passed.toList) ∧
            Looks boundary bounded after ∧
            (∀ frame, passed = some frame → ∃ other seen,
              (other, seen) ∈ (handle, entry) :: rest ∧
              frame = boundary.frameOf space seen ∧
              boundary.stops bounded.iteration space seen.via = false) ∧
            (passed = none → ∀ other seen, (other, seen) ∈ (handle, entry) :: rest →
              bounded.isUnexplored seen.target = true →
              boundary.stops bounded.iteration space seen.via = true) := by
        intro current accountedCurrent looks sameUnexplored here
        obtain ⟨passed, after, answer, accountedAfter, looksAfter, yes, no⟩ :=
          inductionHypothesis accountedCurrent
        rw [looks.iteration] at yes no
        refine ⟨passed, after, answer, accountedAfter, looks.trans looksAfter, ?_, ?_⟩
        · intro frame isFrame
          obtain ⟨other, seen, member, rest⟩ := yes frame isFrame
          exact ⟨other, seen, List.mem_cons_of_mem _ member, rest⟩
        · intro isNone other seen member unexplored
          rcases List.mem_cons.1 member with same | listed
          · cases same
            exact here unexplored
          · exact no isNone other seen listed ((sameUnexplored _).trans unexplored)
      unfold BoundedSearch.freshSuccessor
      cases unexplored : bounded.isUnexplored entry.target with
      | false =>
          exact later accounted (.refl boundary bounded) (fun _ => rfl)
            fun impossible => by simp [unexplored] at impossible
      | true =>
          simp only [Bool.not_true, Bool.false_eq_true, if_false]
          rw [accounted.pass?_eq space entry]
          cases stopped : boundary.stops bounded.iteration space entry.via with
          | true =>
              obtain ⟨prototype, sameBoundary⟩ := defer_same bounded handle entry.target
              have looks := defer_looks stopped handle entry.target
              have unchanged : { bounded with boundary := some boundary } = bounded := by
                rw [← accounted.installed]
              simp only [if_true, unchanged]
              exact later (accounted.same prototype sameBoundary looks.iteration) looks
                (defer_spec bounded handle entry.target).1.isUnexplored fun _ => stopped
          | false =>
              simp only [Bool.false_eq_true, if_false]
              refine ⟨_, _, rfl, accounted.push nonempty Limit.isSome_of_crosses,
                ⟨rfl, rfl, .inl rfl⟩, ?_, nofun⟩
              rintro _ ⟨⟩
              exact ⟨handle, entry, List.mem_cons_self, rfl, stopped⟩

/-- A frame can always be left. -/
theorem leave {top : Frame} {rest : List Frame}
    (accounted : bounded.Accounted (top :: rest) boundary) :
    ∃ after boundaryAfter, bounded.leave top rest = (.ok (), after) ∧
      after.Accounted rest boundaryAfter ∧ after.search.stack = rest ∧
      after.search.next = bounded.search.next ∧ after.prototype = bounded.prototype ∧
      after.iteration = bounded.iteration ∧ after.deferred = bounded.deferred := by
  have moved : ∀ frame ∈ rest, frame.counted = true → frame.via.isSome = true :=
    fun frame member => accounted.moved frame (List.mem_cons_of_mem _ member)
  have bottom : ∀ frame, rest.getLast? = some frame → frame.counted = false := by
    intro frame isBottom
    refine accounted.bottom frame ?_
    rw [List.getLast?_cons, isBottom]
    rfl
  have depth := accounted.depth
  rw [List.countP_cons] at depth
  unfold BoundedSearch.leave
  simp only [accounted.installed]
  cases counted : top.counted with
  | true =>
      rw [counted] at depth
      have lowered : boundary.backtrack = .ok (boundary.setDepth (boundary.depth - 1)) := by
        rw [Boundary.backtrack, if_neg (by simp at depth; omega)]
      rw [accounted.moved top List.mem_cons_self counted]
      simp only [Bool.and_true, lowered]
      refine ⟨_, boundary.setDepth (boundary.depth - 1), rfl, ?_, rfl, rfl, rfl, rfl, rfl⟩
      refine ⟨rfl, accounted.isInstance, accounted.limit, ?_, moved, bottom, accounted.first⟩
      change boundary.depth - 1 = rest.countP (·.counted)
      simp at depth
      omega
  | false =>
      rw [counted] at depth
      simp only [Bool.false_and]
      refine ⟨_, boundary, rfl, ?_, rfl, rfl, rfl, rfl, rfl⟩
      exact ⟨rfl, accounted.isInstance, accounted.limit, by simpa using depth, moved, bottom,
        accounted.first⟩

/-- A search that runs dry rests or starts again, unless its limit cannot be
relaxed. -/
theorem restart (accounted : bounded.Accounted [] boundary)
    (stack : bounded.search.stack = []) (stopped : bounded.search.next = none)
    (space : StateSpace R) (config : Config) :
    ∃ result after, bounded.restart config = (result, after) ∧
      Arrives space config bounded result after ∧
      (result = .ok () → ∃ boundaryAfter, after.Accounted after.frames boundaryAfter) := by
  unfold BoundedSearch.restart
  cases may : bounded.mayRestart config with
  | false =>
      refine ⟨_, _, rfl, .rests stack may, fun _ => ⟨boundary, ?_⟩⟩
      rw [BoundedSearch.frames, stack, stopped]
      exact accounted
  | true =>
      have again : bounded.iteration - 1 + 1 = bounded.iteration :=
        Nat.sub_add_cancel accounted.first
      have increases := Boundary.increase_cases accounted.limit
      rw [again] at increases
      rcases increases with increased | ⟨overflows, large⟩
      · let relaxed := Boundary.setDepth { boundary with
          limit := bounded.prototype.limit.relaxed bounded.iteration } 0
        have relaxes : relax bounded.boundary = .ok (some relaxed) := by
          rw [accounted.installed, relax, increased]
        simp only [Bool.not_true, Bool.false_eq_true, if_false, relaxes]
        refine ⟨_, _, rfl, .restarts (some relaxed) stack may, fun _ => ⟨relaxed, ?_⟩⟩
        have fresh : ∀ frame ∈ (bounded.search.initial.map fun state =>
            ({ state := state } : Frame)).toList ++ bounded.search.stack,
            frame.counted = false := by
          intro frame member
          rw [stack, List.append_nil, Option.mem_toList, Option.map_eq_some_iff] at member
          obtain ⟨state, _, rfl⟩ := member
          rfl
        constructor
        · rfl
        · exact accounted.isInstance
        · rfl
        · refine (List.countP_eq_zero.2 ?_).symm
          intro frame member
          rw [fresh frame member]
          exact Bool.false_ne_true
        · intro frame member counted
          rw [fresh frame member] at counted
          cases counted
        · intro frame isBottom
          exact fresh frame (List.mem_of_getLast? isBottom)
        · exact Nat.le_add_left 1 _
      · have relaxes : relax bounded.boundary = .error .overflow := by
          rw [accounted.installed, relax, overflows]
        simp only [Bool.not_true, Bool.false_eq_true, if_false, relaxes]
        exact ⟨_, _, rfl, .overflows stack may large, nofun⟩

/-- Walking back always comes to an end. -/
theorem retreat {stack : List Frame} (accounted : bounded.Accounted stack boundary)
    (onTop : bounded.search.stack = stack) (stopped : bounded.search.next = none)
    (space : StateSpace R) (config : Config) :
    ∃ reached boundaryReached result after,
      BoundedSearch.retreat space config stack bounded = (result, after) ∧
      Walks space bounded reached ∧
      reached.Accounted reached.search.stack boundaryReached ∧
      Arrives space config reached result after ∧
      (result = .ok () → ∃ boundaryAfter, after.Accounted after.frames boundaryAfter) := by
  induction stack generalizing bounded boundary with
  | nil =>
      obtain ⟨result, after, answer, arrives, accountedAfter⟩ :=
        accounted.restart onTop stopped space config
      exact ⟨bounded, boundary, result, after, answer, .refl, onTop ▸ accounted, arrives,
        accountedAfter⟩
  | cons top rest inductionHypothesis =>
      obtain ⟨passed, moved, fresh, accountedMoved, _⟩ :=
        accounted.freshSuccessor (List.cons_ne_nil _ _) space
          (bounded.search.product.outgoing top.state)
      have defers := (freshSuccessor_spec fresh).1.defers
      have onTopMoved : moved.search.stack = top :: rest := defers.stack.trans onTop
      unfold BoundedSearch.retreat
      simp only [fresh]
      cases passed with
      | some frame =>
          refine ⟨bounded, boundary, _, _, rfl, .refl, onTop ▸ accounted, .chooses onTop fresh,
            fun _ => ⟨boundary.raised [frame], ?_⟩⟩
          rw [BoundedSearch.frames]
          simp only [Option.toList_some, onTopMoved]
          exact accountedMoved.same rfl rfl rfl
      | none =>
          obtain ⟨left, boundaryLeft, leave, accountedLeft, stack, next, _⟩ := accountedMoved.leave
          simp only [leave]
          obtain ⟨reached, boundaryReached, result, after, answer, walks, rest⟩ :=
            inductionHypothesis accountedLeft stack (next.trans (defers.next.trans stopped))
          exact ⟨reached, boundaryReached, result, after, answer,
            walks.head (.leaves onTop fresh leave), rest⟩

end Accounted

/-- A prepared search has one frame to enter, which is not counted. -/
theorem prepare_accounted {A : Type} [Acceptor R A] {run later : Exploration R A}
    {ready : BoundedSearch} (prepare : bounded.prepare run = .ok (ready, later)) :
    ready.Accounted ready.frames bounded.prototype.instantiate ∧ ready.deferred = [] ∧
      ready.iteration = 1 ∧ ready.prototype = bounded.prototype := by
  unfold BoundedSearch.prepare Search.reset at prepare
  split at prepare
  · cases prepare
  · rename_i search reset
    split at reset
    · cases reset
    · cases reset
      cases prepare
      refine ⟨⟨rfl, rfl, bounded.prototype.instantiate_limit, rfl, ?_, ?_, Nat.le_refl 1⟩, rfl, rfl,
        rfl⟩
      · intro frame member counted
        cases List.mem_singleton.1 member
        cases counted
      · intro frame isBottom
        cases isBottom
        rfl

namespace Balanced

theorem same (balanced : bounded.Balanced frames boundary bound)
    (prototype : after.prototype = bounded.prototype)
    (sameBoundary : after.boundary = bounded.boundary)
    (iteration : after.iteration = bounded.iteration)
    (deferring : after.deferred ≠ [] → bounded.iteration ≤ bound) :
    after.Balanced frames boundary bound where
  toAccounted := balanced.toAccounted.same prototype sameBoundary iteration
  deferring deferred := iteration ▸ deferring deferred
  last := iteration ▸ balanced.last
  fits := prototype ▸ balanced.fits

/-- Looking at transitions keeps the balance of a path within the bound. -/
theorem looked (balanced : bounded.Balanced frames boundary bound)
    (shallow : boundary.depth < bound) (looks : Looks boundary bounded after)
    {framesAfter : List Frame} {boundaryAfter : Boundary}
    (accounted : after.Accounted framesAfter boundaryAfter) :
    after.Balanced framesAfter boundaryAfter bound where
  toAccounted := accounted
  deferring := by
    intro deferred
    rw [looks.iteration]
    rcases looks.deferring with same | spent
    · exact balanced.deferring (same ▸ deferred)
    · omega
  last := looks.iteration ▸ balanced.last
  fits := looks.prototype ▸ balanced.fits

/-- A search that runs dry can always be started again if it may. -/
theorem restart (balanced : bounded.Balanced [] boundary bound)
    (stack : bounded.search.stack = []) (stopped : bounded.search.next = none)
    (space : StateSpace R) (config : Config) :
    ∃ after boundaryAfter, bounded.restart config = (.ok (), after) ∧
      after.Balanced after.frames boundaryAfter bound := by
  obtain ⟨result, after, answer, arrives, accounted⟩ :=
    balanced.toAccounted.restart stack stopped space config
  have deferring : bounded.mayRestart config = true → bounded.iteration ≤ bound := by
    intro may
    refine balanced.deferring fun nothing => ?_
    simp [mayRestart, nothing] at may
  cases arrives with
  | chooses onTop fresh =>
      rw [stack] at onTop
      cases onTop
  | rests empty may =>
      refine ⟨bounded, boundary, answer, ?_⟩
      rw [BoundedSearch.frames, stack, stopped]
      exact balanced
  | restarts relaxed empty may =>
      obtain ⟨boundaryAfter, accountedAfter⟩ := accounted rfl
      exact ⟨_, boundaryAfter, answer, accountedAfter, fun deferred => absurd rfl deferred,
        Nat.succ_le_succ (deferring may), balanced.fits⟩
  | overflows empty may large => exact absurd (balanced.fits.mono (deferring may)) large

/-- Walking back always comes to an end, at a frame to enter or not. -/
theorem retreat {stack : List Frame}
    (balanced : bounded.Balanced stack boundary bound) (within : stack.length ≤ bound)
    (onTop : bounded.search.stack = stack) (stopped : bounded.search.next = none)
    (space : StateSpace R) (config : Config) :
    ∃ after boundaryAfter, BoundedSearch.retreat space config stack bounded = (.ok (), after) ∧
      after.Balanced after.frames boundaryAfter bound := by
  induction stack generalizing bounded boundary with
  | nil => exact balanced.restart onTop stopped space config
  | cons top rest inductionHypothesis =>
      have shallow := balanced.depth_lt (List.cons_ne_nil _ _) within
      obtain ⟨passed, moved, fresh, accounted, looks, _⟩ :=
        balanced.toAccounted.freshSuccessor (List.cons_ne_nil _ _) space
          (bounded.search.product.outgoing top.state)
      have balancedMoved := balanced.looked shallow looks accounted
      have defers := (freshSuccessor_spec fresh).1.defers
      have onTopMoved : moved.search.stack = top :: rest := defers.stack.trans onTop
      unfold BoundedSearch.retreat
      simp only [fresh]
      cases passed with
      | some frame =>
          refine ⟨_, boundary.raised [frame], rfl, ?_⟩
          rw [BoundedSearch.frames]
          simp only [Option.toList_some, onTopMoved]
          exact balancedMoved.same rfl rfl rfl balancedMoved.deferring
      | none =>
          obtain ⟨left, boundaryLeft, leave, accountedLeft, stack, next, prototype, iteration,
            deferred⟩ := accounted.leave
          have balancedLeft : left.Balanced rest boundaryLeft bound :=
            { toAccounted := accountedLeft
              deferring := by
                rw [deferred, iteration]
                exact balancedMoved.deferring
              last := iteration ▸ balancedMoved.last
              fits := prototype ▸ balancedMoved.fits }
          simp only [leave]
          refine inductionHypothesis balancedLeft ?_ stack (next.trans (defers.next.trans stopped))
          rw [List.length_cons] at within
          omega

end Balanced

/-- Looking for a cycle does not change the boundary. -/
theorem findCycle_same {entries : List (ProductTransitionId × ProductTransition)} {found : Bool}
    {after : BoundedSearch} (answer : findCycle space entries bounded = (.ok found, after)) :
    after.boundary = bounded.boundary := by
  induction entries generalizing bounded with
  | nil =>
      cases answer
      rfl
  | cons head rest inductionHypothesis =>
      unfold findCycle at answer
      split at answer
      · cases answer
      · rename_i allowed seen look
        have same : seen.boundary = bounded.boundary := by
          rcases allows_spec look with ⟨_, rfl⟩ | ⟨_, _, rfl⟩
          · rfl
          · exact (defer_same bounded head.1 head.2.target).2
        split at answer
        · cases answer
          exact same
        · exact (inductionHypothesis answer).trans same

/-- The boundary takes account of the frame of a transition that passes. -/
theorem pass?_account {entry : ProductTransition} {passed : Option Frame}
    {boundaryAfter : Option Boundary}
    (answer : bounded.pass? space entry = .ok (passed, boundaryAfter)) :
    boundaryAfter = bounded.boundary.map (·.raised passed.toList) ∧
      ∀ frame ∈ passed, frame.counted = true → frame.via.isSome = true := by
  unfold BoundedSearch.pass? at answer
  split at answer
  · rename_i transition boundary found installed
    have isMove : entry.via.isSome = true := by
      cases via : entry.via with
      | none => simp [via] at found
      | some _ => rfl
    have moves : ∀ frame ∈ passed, frame.via = entry.via →
        frame.counted = true → frame.via.isSome = true := by
      intro frame _ sameVia _
      rw [sameVia]
      exact isMove
    split at answer
    · cases answer
    · rename_i crossed crossing
      cases answer
      refine ⟨?_, fun frame member => moves frame member (by cases member; rfl)⟩
      rw [installed, Option.map_some, Option.toList_some]
      rcases Boundary.crossing_cases crossing with rfl | ⟨_, _, rfl⟩
      · simp [Boundary.raised, Boundary.setDepth]
      · simp [Boundary.raised, Boundary.raiseDepth, Boundary.setDepth]
    · rename_i stopped crossing
      obtain rfl : stopped = boundary := by simpa using Boundary.crossing_cases crossing
      split at answer
      · cases answer
        refine ⟨?_, fun frame member => moves frame member (by cases member; rfl)⟩
        rw [installed]
        rfl
      · cases answer
        rw [installed]
        exact ⟨rfl, nofun⟩
  · cases answer
    refine ⟨?_, fun frame member => by cases member; nofun⟩
    cases bounded.boundary <;> rfl

theorem pass?_stop {entry : ProductTransition} {boundaryAfter : Option Boundary}
    (answer : bounded.pass? space entry = .ok (none, boundaryAfter)) :
    boundaryAfter = bounded.boundary :=
  (pass?_account answer).1.trans (Boundary.map_raised_nil _)

/-- The boundary takes account of a frame to enter. -/
theorem freshSuccessor_account {entries : List (ProductTransitionId × ProductTransition)}
    {passed : Option Frame}
    (answer : BoundedSearch.freshSuccessor space entries bounded = (.ok passed, after)) :
    after.boundary = bounded.boundary.map (·.raised passed.toList) ∧
      ∀ frame ∈ passed, frame.counted = true → frame.via.isSome = true := by
  induction entries generalizing bounded with
  | nil =>
      cases answer
      exact ⟨(Boundary.map_raised_nil _).symm, nofun⟩
  | cons head rest inductionHypothesis =>
      unfold BoundedSearch.freshSuccessor at answer
      split at answer
      · exact inductionHypothesis answer
      · split at answer
        · cases answer
        · rename_i frame boundaryAfter pass
          cases answer
          exact pass?_account pass
        · rename_i boundaryAfter stop
          obtain rfl := pass?_stop stop
          obtain ⟨account, moves⟩ := inductionHypothesis answer
          exact ⟨account.trans (by rw [(defer_same _ head.1 head.2.target).2]), moves⟩

/-- Leaving a frame takes it out of account. -/
theorem leave_account {top : Frame} {rest others : List Frame} {origin : Option Boundary}
    (moved : top.counted = true → top.via.isSome = true)
    (account : bounded.boundary = origin.map (·.raised (top :: others)))
    (answer : bounded.leave top rest = (.ok (), after)) :
    after.boundary = origin.map (·.raised others) := by
  unfold BoundedSearch.leave at answer
  simp only at answer
  cases origin with
  | none =>
      rw [Option.map_none] at account
      rw [account] at answer
      split at answer
      · rename_i impossible
        cases impossible
      · cases answer
        rfl
  | some boundary =>
      rw [Option.map_some] at account
      rw [account] at answer
      cases counted : top.counted with
      | true =>
          rw [counted, moved counted] at answer
          simp only [Bool.and_true] at answer
          split at answer
          · cases answer
          · rename_i lowered backtrack
            cases answer
            unfold Boundary.backtrack at backtrack
            split at backtrack
            · cases backtrack
            · cases backtrack
              change some _ = some _
              simp [Boundary.raised, Boundary.setDepth, counted]
      | false =>
          rw [counted] at answer
          cases answer
          change some _ = some _
          simp [Boundary.raised, Boundary.setDepth, counted]

end Parts

end BoundedSearch

end OnTheFly
