import OnTheFly.Proofs.ModelCheck.Bounded.Moves

/-!
Contract: the three colours of a search.

Owns: the tokens that the rounds of a search hand out, that a state has the
token of the stack exactly while it is on the stack, and which states a step
repaints. A state is repainted only while it is on the stack or about to be
entered, so one that was left keeps its colour for the rest of its round.
Does not own: that every strategy keeps to this.
-/

set_option autoImplicit false

namespace OnTheFly

/-! ## Tokens -/

/-- A new round takes the next three numbers from the counter. -/
theorem Round.palette_next (round : Round) (positive : 1 ≤ round.iteration) :
    round.next.palette = round.palette.renewed := by
  obtain ⟨earlier, same⟩ := Nat.exists_eq_add_of_le' positive
  simp only [palette, next, same, Nat.add_sub_cancel, Nat.repeat]

/-- The numbers that a round has from the counter are those of its colours. -/
theorem Round.palette_eq (round : Round) (positive : 1 ≤ round.iteration) :
    round.palette = ⟨round.cyan.token, round.blue.token, round.red.token,
      3 * round.iteration + 1⟩ := by
  obtain ⟨iteration⟩ := round
  induction iteration, positive using Nat.le_induction with
  | base => rfl
  | succ earlier positive inductionHypothesis =>
      have renewed := palette_next ⟨earlier⟩ positive
      rw [inductionHypothesis] at renewed
      refine renewed.trans ?_
      simp only [Palette.renewed, Palette.mk.injEq, cyan, blue, red, Colour.token]
      omega

/-- The colours that have been handed out by this round, in order. -/
def Round.handedOut (round : Round) : List Colour :=
  (List.range round.iteration).flatMap fun earlier =>
    [.painted (earlier + 1) .cyan, .painted (earlier + 1) .blue, .painted (earlier + 1) .red]

/-- Tokens are handed out one after the other, three for each round. -/
theorem Round.tokens_handedOut (round : Round) :
    round.handedOut.map Colour.token = List.range' 1 (3 * round.iteration) := by
  obtain ⟨iteration⟩ := round
  induction iteration with
  | zero => rfl
  | succ earlier inductionHypothesis =>
      have three : List.range' (1 + 3 * earlier) 3 =
          [3 * earlier + 1, 3 * earlier + 2, 3 * earlier + 3] := by
        simp only [List.range', List.cons.injEq, and_true]
        omega
      have split : 3 * (earlier + 1) = 3 * earlier + 3 := by omega
      simp only [handedOut] at inductionHypothesis ⊢
      rw [List.range_succ, List.flatMap_append, List.map_append, inductionHypothesis, split,
        ← List.range'_append_1, three]
      rfl

theorem Round.mem_handedOut {round : Round} {colour : Colour} :
    colour ∈ round.handedOut ↔ ∃ iteration paint, colour = .painted iteration paint ∧
      1 ≤ iteration ∧ iteration ≤ round.iteration := by
  simp only [handedOut, List.mem_flatMap, List.mem_range]
  constructor
  · rintro ⟨earlier, bound, member⟩
    simp only [List.mem_cons, List.not_mem_nil, or_false] at member
    rcases member with rfl | rfl | rfl <;> exact ⟨_, _, rfl, by omega, by omega⟩
  · rintro ⟨iteration, paint, rfl, positive, bound⟩
    refine ⟨iteration - 1, by omega, ?_⟩
    rw [Nat.sub_add_cancel positive]
    cases paint <;> simp

/-- Colours that have been handed out differ in their tokens. -/
theorem Round.token_eq_cyan {round : Round} {colour : Colour} (positive : 1 ≤ round.iteration)
    (handedOut : colour = .unpainted ∨ colour ∈ round.handedOut) :
    colour.token = round.cyan.token ↔ colour = round.cyan := by
  refine ⟨fun same => ?_, fun same => same ▸ rfl⟩
  rcases handedOut with rfl | member
  · simp [Colour.token, Round.cyan] at same
  · obtain ⟨iteration, paint, rfl, positiveToo, _⟩ := Round.mem_handedOut.1 member
    cases paint with
    | cyan =>
        simp only [Colour.token, Round.cyan] at same ⊢
        obtain rfl : iteration = round.iteration := by omega
        rfl
    | blue =>
        simp only [Colour.token, Round.cyan] at same
        omega
    | red =>
        simp only [Colour.token, Round.cyan] at same
        omega

namespace Search

variable {R : RuleSystem} {search after : Search} {automaton : Automaton}
  {initial : ProductStateId} {space : StateSpace R}

/-- The states on the stack are those with the token of the stack, each once.
The next state has not been painted in this round. All tokens come from the
counter. -/
structure ThreeColoured (search : Search) : Prop where
  cyan_iff (state : ProductStateId) :
    (search.product.colour state).token = search.round.cyan.token ↔ state ∈ search.path
  distinct : search.path.Nodup
  unexplored (frame : Frame) : search.next = some frame →
    search.round.isExplored (search.product.colour frame.state) = false
  handedOut (state : ProductStateId) : search.product.colour state = .unpainted ∨
    search.product.colour state ∈ search.round.handedOut
  /-- The colours that have been handed out have the tokens that the counter has
  gone through, one each and in order. -/
  tokens : search.round.handedOut.map Colour.token =
    List.range' 1 (search.round.palette.unused - 1)
  /-- This round has the last three of them. -/
  palette : search.round.palette.cyan = search.round.cyan.token ∧
    search.round.palette.blue = search.round.blue.token ∧
    search.round.palette.red = search.round.red.token

/-- Whether rounds are counted from one. -/
structure Numbered (search : Search) : Prop where
  round : 1 ≤ search.round.iteration
  painted {state : ProductStateId} {iteration : Nat} {paint : Paint} :
    search.product.colour state = .painted iteration paint → 1 ≤ iteration

theorem Pristine.numbered (pristine : search.Pristine initial) : search.Numbered where
  round := by rw [pristine.round]
  painted := by
    intro state iteration paint painted
    rw [pristine.colour] at painted
    cases painted

theorem Coherent.threeColoured (coherent : search.Coherent automaton initial space)
    (numbered : search.Numbered) : search.ThreeColoured := by
  have handedOut : ∀ state, search.product.colour state = .unpainted ∨
      search.product.colour state ∈ search.round.handedOut := by
    intro state
    cases colour : search.product.colour state with
    | unpainted => exact .inl rfl
    | painted iteration paint =>
        exact .inr (Round.mem_handedOut.2
          ⟨iteration, paint, rfl, numbered.painted colour, coherent.rounds colour⟩)
  have palette := search.round.palette_eq numbered.round
  exact {
    cyan_iff := fun state => by
      rw [Round.token_eq_cyan numbered.round (handedOut state), coherent.cyan_iff,
        path_eq_reverse, List.mem_reverse]
    distinct := by
      rw [path_eq_reverse]
      exact List.nodup_reverse.2 coherent.distinct
    unexplored := fun frame next => (coherent.pending next).2.1
    handedOut := handedOut
    tokens := by
      rw [palette, Nat.add_sub_cancel]
      exact search.round.tokens_handedOut
    palette := by
      rw [palette]
      exact ⟨rfl, rfl, rfl⟩ }

/-! ## What is repainted -/

/-- A step paints only states that are on the stack or about to be entered. -/
structure Recolours (search after : Search) : Prop where
  round : search.round.iteration ≤ after.round.iteration
  colour (state : ProductStateId) :
    after.product.colour state = search.product.colour state ∨
      (state ∈ search.onStack ∨ ∃ frame, search.next = some frame ∧ frame.state = state) ∧
        ∃ paint, after.product.colour state = .painted search.round.iteration paint

theorem Recolours.refl (search : Search) : search.Recolours search :=
  ⟨Nat.le_refl _, fun _ => .inl rfl⟩

theorem Recolours.numbered (recolours : search.Recolours after) (numbered : search.Numbered) :
    after.Numbered where
  round := Nat.le_trans numbered.round recolours.round
  painted := by
    intro state iteration paint painted
    rcases recolours.colour state with same | ⟨_, other, repainted⟩
    · exact numbered.painted (same ▸ painted)
    · rw [repainted] at painted
      cases painted
      exact numbered.round

/-- A state that was left is neither on the stack nor about to be entered. -/
theorem Coherent.left_behind (coherent : search.Coherent automaton initial space)
    {state : ProductStateId}
    (left : search.product.colour state ∈ [search.round.blue, search.round.red]) :
    state ∉ search.onStack ∧ ∀ frame, search.next = some frame → frame.state ≠ state := by
  have notCyan : search.product.colour state ≠ search.round.cyan := by
    intro cyan
    rw [cyan] at left
    simp [Round.cyan, Round.blue, Round.red] at left
  have explored : search.round.isExplored (search.product.colour state) = true := by
    simp only [List.mem_cons, List.not_mem_nil, or_false] at left
    rcases left with blue | red
    · exact Round.isExplored_iff.2 ⟨.blue, blue⟩
    · exact Round.isExplored_iff.2 ⟨.red, red⟩
  refine ⟨mt coherent.cyan_iff.2 notCyan, ?_⟩
  rintro frame next rfl
  rw [(coherent.pending next).2.1] at explored
  cases explored

theorem Recolours.left_behind (recolours : search.Recolours after)
    (coherent : search.Coherent automaton initial space) {state : ProductStateId}
    (left : search.product.colour state ∈ [search.round.blue, search.round.red]) :
    after.product.colour state = search.product.colour state := by
  obtain ⟨notOn, notNext⟩ := coherent.left_behind left
  rcases recolours.colour state with same | ⟨onStack | ⟨frame, next, isFrame⟩, _⟩
  · exact same
  · exact absurd onStack notOn
  · exact absurd isFrame (notNext frame next)

/-- Walking back paints only states of the stack. -/
structure Repaints (search after : Search) : Prop where
  round : after.round = search.round
  stack {state : ProductStateId} : state ∈ after.onStack → state ∈ search.onStack
  colour (state : ProductStateId) :
    after.product.colour state = search.product.colour state ∨
      state ∈ search.onStack ∧
        ∃ paint, after.product.colour state = .painted search.round.iteration paint

theorem Repaints.of_colour (round : after.round = search.round)
    (stack : after.stack = search.stack) (colour : after.product.colour = search.product.colour) :
    search.Repaints after :=
  ⟨round, fun member => onStack_congr stack ▸ member, fun state => .inl (congrFun colour state)⟩

theorem Repaints.trans {last : Search} (first : search.Repaints after)
    (second : after.Repaints last) : search.Repaints last where
  round := second.round.trans first.round
  stack member := first.stack (second.stack member)
  colour := by
    intro state
    rcases second.colour state with same | ⟨onStack, paint, painted⟩
    · rw [same]
      exact first.colour state
    · rw [first.round] at painted
      exact .inr ⟨first.stack onStack, paint, painted⟩

/-- A frame is entered, after which the search walks back. -/
theorem Enters.recolours {frame : Frame} {opened : Search} (next : search.next = some frame)
    (enters : Enters frame search opened) (repaints : opened.Repaints after) :
    search.Recolours after := by
  have onStack : opened.onStack = frame.state :: search.onStack := onStack_eq_cons enters.stack
  refine ⟨Nat.le_of_eq (congrArg Round.iteration (repaints.round.trans enters.round)).symm, ?_⟩
  intro state
  rcases repaints.colour state with same | ⟨member, paint, painted⟩
  · rw [same, enters.colour]
    split
    · rename_i isFrame
      exact .inr ⟨.inr ⟨frame, next, isFrame.symm⟩, .cyan, rfl⟩
    · exact .inl rfl
  · rw [onStack, List.mem_cons] at member
    rw [enters.round] at painted
    refine .inr ⟨?_, paint, painted⟩
    rcases member with isFrame | below
    · exact .inr ⟨frame, next, isFrame.symm⟩
    · exact .inl below

/-- All states on the stack are there after a frame is entered. -/
theorem Coherent.present_opened (coherent : search.Coherent automaton initial space)
    {frame : Frame} {opened : Search} (next : search.next = some frame)
    (enters : Enters frame search opened) :
    ∀ other ∈ opened.stack, ∃ entry, opened.product.state? other.state = some entry := by
  intro other member
  rw [enters.stack] at member
  rcases List.mem_cons.1 member with rfl | below
  · obtain ⟨⟨entry, present⟩, _⟩ := coherent.pending next
    exact enters.present present
  · obtain ⟨entry, present⟩ :=
      Product.present_of_colour (coherent.painted_of_mem (List.mem_map_of_mem below))
    exact enters.present present

end Search

/-! ## The plain search -/

namespace LtlSearch

variable {R : RuleSystem} {G A : Type} [Chooser G] [Acceptor R A]

omit [Acceptor R A] in
theorem retreat_repaints (stack : List Frame) (ltl : LtlSearch G)
    (present : ∀ frame ∈ stack, ∃ entry, ltl.search.product.state? frame.state = some entry) :
    ({ ltl.search with stack := stack } : Search).Repaints (retreat stack ltl).search := by
  induction stack generalizing ltl with
  | nil => exact .of_colour rfl rfl rfl
  | cons top rest inductionHypothesis =>
      unfold retreat
      split
      · exact .of_colour rfl rfl rfl
      · rename_i chooser _
        obtain ⟨entry, presentTop⟩ := present top List.mem_cons_self
        obtain ⟨product, closes, shape, colours, _⟩ :=
          Product.close_spec presentTop ltl.search.round.blue
        rw [closes]
        refine .trans ?_ (inductionHypothesis ⟨{ ltl.search with product := product }, chooser⟩ ?_)
        · refine ⟨rfl, fun member => List.mem_cons_of_mem _ member, fun state => ?_⟩
          have colour := colours state
          by_cases isTop : state = top.state
          · rw [if_pos isTop] at colour
            exact .inr ⟨isTop ▸ List.mem_cons_self, .blue, colour⟩
          · rw [if_neg isTop] at colour
            exact .inl colour
        · intro frame member
          obtain ⟨before, presentBefore⟩ := present frame (List.mem_cons_of_mem _ member)
          exact (shape.state? presentBefore).imp fun _ => And.left

section Step

variable {automaton : Automaton} {initial : ProductStateId} {root : ProductPoint}
  {ltl after : LtlSearch G} {run later : Exploration R A} {result : Except Failure StateId}

theorem explore_repaints {opened : Search} {state : ProductStateId} {chooser : G}
    (present : ∀ frame ∈ opened.stack, ∃ entry, opened.product.state? frame.state = some entry)
    (explores : explore ⟨opened, chooser⟩ run state = (after, later)) :
    opened.Repaints after.search := by
  unfold explore at explores
  split at explores
  · cases explores
    exact .of_colour rfl rfl rfl
  · cases explores
    exact retreat_repaints opened.stack ⟨opened, chooser⟩ present

/-- A step meets no breach, and paints only what is on the stack or next. -/
theorem doNext_recolours (located : automaton.Located)
    (invariant : ltl.Invariant run automaton initial root)
    (placed : ltl.search.Placed automaton) (step : ltl.doNext run = (result, after, later)) :
    (∀ breach, result ≠ .error (.breach breach)) ∧
      after.Invariant later automaton initial root ∧ after.search.Placed automaton ∧
      ltl.search.Recolours after.search := by
  have unbroken := doNext_unbroken invariant placed
  rw [step] at unbroken
  have move := doNext_move invariant.faithful.coherent step unbroken
  refine ⟨unbroken, move.invariant invariant, ?_⟩
  cases move with
  | rest stopped => exact ⟨placed, .refl _⟩
  | refuse next closed => exact ⟨placed, .refl _⟩
  | visit next closed here opens explores =>
      obtain ⟨_, _, _, enters, touches, _⟩ := invariant.visit next closed here opens explores
      subst opens
      exact ⟨(placed.opened located here).reshaped touches.shape, enters.recolours next
        (explore_repaints (invariant.faithful.coherent.present_opened next enters) explores)⟩

end Step

end LtlSearch

/-! ## The bounded search -/

namespace BoundedSearch

variable {R : RuleSystem} {automaton : Automaton} {initial : ProductStateId}
  {bounded after : BoundedSearch} {space : StateSpace R}

theorem Defers.repaints (defers : bounded.Defers after) : bounded.search.Repaints after.search :=
  .of_colour defers.touches.round defers.stack defers.colour

theorem Leaves.repaints {top : Frame} (leaves : bounded.Leaves top after) :
    bounded.search.Repaints after.search := by
  have onStack : bounded.search.onStack = top.state :: after.search.onStack :=
    Search.onStack_eq_cons leaves.stack
  refine ⟨leaves.touches.round, ?_, fun state => ?_⟩
  · intro state member
    rw [onStack]
    exact List.mem_cons_of_mem _ member
  · rw [leaves.colour, onStack]
    split
    · rename_i isTop
      exact .inr ⟨isTop ▸ List.mem_cons_self, _, rfl⟩
    · exact .inl rfl

theorem Walking.repaints {reached : BoundedSearch}
    (walking : bounded.Walking automaton initial space) (wellFormed : space.WellFormed)
    (walk : Walks space bounded reached) : bounded.search.Repaints reached.search := by
  induction walk with
  | refl => exact .of_colour rfl rfl rfl
  | tail walk back inductionHypothesis =>
      obtain ⟨walkingNow, _⟩ := walking.walks wellFormed walk
      cases back with
      | leaves onTop fresh leave =>
          obtain ⟨_, defers, leaves, _⟩ := walkingNow.walked wellFormed onTop fresh leave
          exact inductionHypothesis.trans (defers.repaints.trans leaves.repaints)

theorem Arrives.recolours {config : Config} {reached : BoundedSearch}
    {outcome : Except Breach Unit} (arrives : Arrives space config reached outcome after) :
    after.search.product.colour = reached.search.product.colour ∧
      reached.search.round.iteration ≤ after.search.round.iteration := by
  cases arrives with
  | chooses onTop fresh =>
      have defers := (freshSuccessor_spec fresh).1.defers
      exact ⟨defers.colour, Nat.le_of_eq (congrArg Round.iteration defers.touches.round).symm⟩
  | rests empty may => exact ⟨rfl, Nat.le_refl _⟩
  | restarts boundary empty may => exact ⟨rfl, Nat.le_succ _⟩
  | overflows empty may large => exact ⟨rfl, Nat.le_succ _⟩

/-- A step paints only what is on the stack or next. -/
theorem Steps.recolours {A : Type} {run later : Exploration R A}
    {result : Except Failure StateId} (wellFormed : later.space.WellFormed)
    (steps : Steps automaton initial bounded run result after later) :
    bounded.search.Recolours after.search := by
  cases steps with
  | rests stopped => exact .refl _
  | refuses next advanced => exact .refl _
  | reports advanced opens =>
      have looked := (findCycle_spec opens.look).1.defers.repaints
      exact opens.enters.recolours opens.next
        (looked.trans (.of_colour rfl rfl rfl))
  | @walks frame opened passed reached _ _ _ _ _ advanced opens walk accounted arrives =>
      have looked := (findCycle_spec opens.look).1.defers.repaints
      have completed : passed.search.Repaints (passed.completed frame.state).search :=
        .of_colour rfl rfl (passed.colour_completed frame.state)
      have walked := (opens.walking rfl).repaints wellFormed walk
      obtain ⟨colour, round⟩ := arrives.recolours
      have recolours : bounded.search.Recolours reached.search :=
        opens.enters.recolours opens.next (looked.trans (completed.trans walked))
      exact ⟨Nat.le_trans recolours.round round, colour ▸ recolours.colour⟩

end BoundedSearch

end OnTheFly
