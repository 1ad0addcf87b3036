import OnTheFly.Proofs.Automaton.ByName
import OnTheFly.Proofs.Automaton.Written

/-!
Contract: which automata are read as they were written.

Owns: the lines of a written automaton and what is read in them, the draft that
they make together, and the four conditions under which reading a written
automaton gives it back up to the numbers of its locations.

The text numbers locations by first mention, so numbers are not kept. It has no
line for a location that nothing mentions, and no way to write a name of other
characters, a transition of a location called `init` or `accept`, or the guard
of the one literal `true`.
-/

set_option autoImplicit false

namespace OnTheFly

open Text

/-! ## Drafts of lines -/

theorem mem_firstMentions {names earlier : List String} {name : String} :
    name ∈ firstMentions earlier names ↔ name ∈ earlier ∨ name ∈ names := by
  induction names generalizing earlier with
  | nil => simp [firstMentions]
  | cons first names inductionHypothesis =>
      rw [firstMentions, inductionHypothesis]
      by_cases known : first ∈ earlier
      · rw [if_pos known, List.mem_cons]
        constructor
        · tauto
        · rintro (before | rfl | later)
          · exact .inl before
          · exact .inl known
          · exact .inr later
      · rw [if_neg known, List.mem_append, List.mem_singleton, List.mem_cons]
        tauto

theorem firstMentions_nodup {names earlier : List String} (distinct : earlier.Nodup) :
    (firstMentions earlier names).Nodup := by
  induction names generalizing earlier with
  | nil => exact distinct
  | cons first names inductionHypothesis =>
      rw [firstMentions]
      apply inductionHypothesis
      by_cases known : first ∈ earlier
      · rwa [if_pos known]
      · rw [if_neg known]
        rw [List.nodup_append_comm]
        exact List.nodup_cons.2 ⟨known, distinct⟩

namespace Draft

variable {lines : List Line}

theorem names_ofLines : (ofLines lines).names = firstMentions [] (lines.flatMap Line.mentions) := by
  simp [names, ofLines, Function.comp_def]

theorem mem_names_ofLines {name : String} :
    name ∈ (ofLines lines).names ↔ ∃ line ∈ lines, name ∈ line.mentions := by
  simp [names_ofLines, mem_firstMentions]

theorem nodup_names_ofLines : (ofLines lines).names.Nodup := by
  rw [names_ofLines]
  exact firstMentions_nodup List.nodup_nil

theorem mem_edges_ofLines {edge : DraftEdge} :
    edge ∈ (ofLines lines).edges ↔ ∃ line ∈ lines, line.edge? = some edge := by
  simp [ofLines]

/-- The ends of transition lines are declared by them. -/
theorem ends_declared {edge : DraftEdge} (member : edge ∈ (ofLines lines).edges) :
    edge.source ∈ (ofLines lines).names ∧ edge.target ∈ (ofLines lines).names := by
  obtain ⟨line, listed, same⟩ := mem_edges_ofLines.1 member
  cases line with
  | edge written =>
      cases same
      exact ⟨mem_names_ofLines.2 ⟨_, listed, by simp [Line.mentions]⟩,
        mem_names_ofLines.2 ⟨_, listed, by simp [Line.mentions]⟩⟩
  | empty | initial | accepting => cases same

end Draft

namespace Automaton

/-! ## Reading line by line -/

theorem map_read_of_readLines {texts : List (List Char)} {number : Nat} {seen : Bool}
    {lines : List Line} (read : readLines number seen texts = .ok lines) :
    texts.map Line.read = lines.map Except.ok := by
  induction texts generalizing number seen lines with
  | nil =>
      cases read
      rfl
  | cons text texts inductionHypothesis =>
      unfold readLines at read
      split at read
      · cases read
      rename_i line readLine
      split at read
      · cases read
      split at read
      · cases read
      rename_i others readOthers
      cases read
      rw [List.map_cons, readLine, inductionHypothesis readOthers, List.map_cons]

theorem readLines_of_map_read {texts : List (List Char)} {number : Nat} {seen : Bool}
    {lines : List Line} (reads : texts.map Line.read = lines.map Except.ok)
    (noInitial : ∀ line ∈ lines, line.isInitial = false) :
    readLines number seen texts = .ok lines := by
  induction texts generalizing number seen lines with
  | nil =>
      obtain rfl := List.map_eq_nil_iff.1 reads.symm
      rfl
  | cons text texts inductionHypothesis =>
      cases lines with
      | nil => cases reads
      | cons line lines =>
          rw [List.map_cons, List.map_cons, List.cons.injEq] at reads
          have notInitial := noInitial line List.mem_cons_self
          have others {number : Nat} {seen : Bool} : readLines number seen texts = .ok lines :=
            inductionHypothesis reads.2 fun other member =>
              noInitial other (List.mem_cons_of_mem _ member)
          unfold readLines
          rw [reads.1]
          simp only [notInitial, Bool.and_false, Bool.false_eq_true, if_false]
          rw [others]

/-- All names in an automaton that was read are names. -/
theorem named_of_parse {text : String} {parsed : Automaton} (read : parse text = .ok parsed) :
    ∃ lines : List Line, (∀ line ∈ lines, line.Named) ∧
      (Draft.ofLines lines).build = .ok parsed := by
  unfold parse at read
  split at read
  · cases read
  rename_i lines readAll
  refine ⟨lines, fun line listed => ?_, read⟩
  have readOne : Except.ok line ∈ (Text.lines text.toList).map Line.read :=
    map_read_of_readLines readAll ▸ List.mem_map_of_mem listed
  obtain ⟨_, _, same⟩ := List.mem_map.1 readOne
  exact Line.named_of_read same

/-! ## What is written -/

def acceptingNames (automaton : Automaton) : List String :=
  (automaton.locations.toList.filter (·.accepting)).map (·.name)

/-- The transitions in the order in which they are written. -/
def writtenEdges (automaton : Automaton) : List DraftEdge :=
  automaton.locations.toList.flatMap fun location =>
    location.edges.map fun edge => ⟨location.name, edge.guard, automaton.nameOf edge.target⟩

/-- The lines that are read where an automaton was written. -/
def readBack (automaton : Automaton) : List Line :=
  .initial (automaton.nameOf automaton.initial) ::
    (automaton.acceptingNames.map .accepting ++
      automaton.writtenEdges.map (fun edge => .edge { edge with guard := edge.guard.reread }) ++
        [.empty])

variable {automaton : Automaton}

theorem mem_writtenEdges {written : DraftEdge} :
    written ∈ automaton.writtenEdges ↔ ∃ location ∈ automaton.locations.toList,
      ∃ edge ∈ location.edges,
        ⟨location.name, edge.guard, automaton.nameOf edge.target⟩ = written := by
  simp [writtenEdges]

theorem mem_propositions {proposition : String} :
    proposition ∈ automaton.propositions ↔ ∃ location ∈ automaton.locations.toList,
      ∃ edge ∈ location.edges,
        proposition ∈ edge.guard.positive ∨ proposition ∈ edge.guard.negative := by
  rw [propositions, NameSet.mem_ofList]
  simp [NameSet.mem_iff]

theorem toList_render (automaton : Automaton) :
    automaton.render.toList = (automaton.renderLines.map String.toList).flatMap (· ++ ['\n']) := by
  simp [render, List.flatMap_def, Function.comp_def]

theorem toList_renderLines (automaton : Automaton) :
    automaton.renderLines.map String.toList =
      ("init".toList ++ ' ' :: (automaton.nameOf automaton.initial).toList) ::
        (automaton.acceptingNames.map (fun name => "accept".toList ++ ' ' :: name.toList) ++
          automaton.writtenEdges.map fun edge =>
            edge.source.toList ++ ' ' :: Line.arrowText edge.guard edge.target) := by
  have spelled (text : String) : toString text = text := rfl
  simp [renderLines, renderEdges, acceptingNames, writtenEdges, Line.arrowText, List.map_flatMap,
    Function.comp_def, spelled]

/-- Whether all locations and propositions of an automaton are names. -/
structure Named (automaton : Automaton) : Prop where
  locations {location : Location} : location ∈ automaton.locations.toList → IsName location.name
  propositions {proposition : String} : proposition ∈ automaton.propositions → IsName proposition

namespace Named

theorem nameOf (named : automaton.Named) {place : LocationId} {location : Location}
    (here : automaton.location? place = some location) : IsName (automaton.nameOf place) := by
  rw [nameOf_of_location? here]
  exact named.locations (location_mem_iff.2 ⟨place, here⟩)

theorem initial (named : automaton.Named) (located : automaton.Located) :
    IsName (automaton.nameOf automaton.initial) := by
  obtain ⟨location, here⟩ := located.initial
  exact named.nameOf here

theorem accepting (named : automaton.Named) {name : String}
    (member : name ∈ automaton.acceptingNames) : IsName name := by
  obtain ⟨location, listed, rfl⟩ := List.mem_map.1 member
  exact named.locations (List.mem_filter.1 listed).1

theorem written (named : automaton.Named) (located : automaton.Located) {edge : DraftEdge}
    (member : edge ∈ automaton.writtenEdges) :
    IsName edge.source ∧ edge.guard.Named ∧ IsName edge.target := by
  obtain ⟨location, listed, edge, leaves, rfl⟩ := mem_writtenEdges.1 member
  obtain ⟨place, here⟩ := location_mem_iff.1 listed
  obtain ⟨reached, there⟩ := located.target here leaves
  refine ⟨named.locations listed, ⟨fun required => ?_, fun forbidden => ?_⟩, named.nameOf there⟩
  · exact named.propositions (mem_propositions.2 ⟨location, listed, edge, leaves, .inl required⟩)
  · exact named.propositions (mem_propositions.2 ⟨location, listed, edge, leaves, .inr forbidden⟩)

end Named

theorem lines_render (located : automaton.Located) (named : automaton.Named) :
    lines automaton.render.toList = automaton.renderLines.map String.toList ++ [[]] := by
  rw [toList_render]
  apply lines_flatMap
  have noFeed {name : String} (isName : IsName name) : '\n' ∉ name.toList :=
    isName.not_mem '\n' (by decide)
  intro text member
  rw [toList_renderLines, List.mem_cons, List.mem_append, List.mem_map, List.mem_map] at member
  rcases member with rfl | ⟨name, listed, rfl⟩ | ⟨edge, listed, rfl⟩
  · simp [noFeed (named.initial located)]
  · simp [noFeed (named.accepting listed)]
  · obtain ⟨isSource, guard, isTarget⟩ := named.written located listed
    simp [noFeed isSource, Line.not_mem_arrowText guard isTarget]

/-- Every written line is read, where no source of a transition is a keyword. -/
theorem parse_render (located : automaton.Located) (named : automaton.Named)
    (noKeyword : ∀ edge ∈ automaton.writtenEdges, edge.source ≠ "init" ∧ edge.source ≠ "accept") :
    parse automaton.render = (Draft.ofLines automaton.readBack).build := by
  have accepts :
      (automaton.acceptingNames.map fun name => "accept".toList ++ ' ' :: name.toList).map
        Line.read = (automaton.acceptingNames.map Line.accepting).map Except.ok := by
    rw [List.map_map, List.map_map]
    apply List.map_congr_left
    intro name listed
    rw [Function.comp_apply, Line.read_accepting (named.accepting listed)]
    rfl
  have connects : (automaton.writtenEdges.map fun edge =>
      edge.source.toList ++ ' ' :: Line.arrowText edge.guard edge.target).map Line.read =
        (automaton.writtenEdges.map fun edge =>
          Line.edge { edge with guard := edge.guard.reread }).map Except.ok := by
    rw [List.map_map, List.map_map]
    apply List.map_congr_left
    intro edge listed
    obtain ⟨isSource, guard, isTarget⟩ := named.written located listed
    rw [Function.comp_apply, Line.read_edge isSource guard isTarget (noKeyword edge listed)]
    rfl
  have others {number : Nat} : readLines number true
      ((automaton.acceptingNames.map fun name => "accept".toList ++ ' ' :: name.toList) ++
        (automaton.writtenEdges.map fun edge =>
          edge.source.toList ++ ' ' :: Line.arrowText edge.guard edge.target) ++ [[]]) =
      .ok automaton.readBack.tail := by
    apply readLines_of_map_read
    · rw [List.map_append, List.map_append, accepts, connects, readBack, List.tail_cons,
        List.map_append, List.map_append]
      rfl
    · intro line member
      simp only [readBack, List.tail_cons, List.mem_append, List.mem_map,
        List.mem_singleton] at member
      rcases member with (⟨name, _, rfl⟩ | ⟨edge, _, rfl⟩) | rfl <;> rfl
  rw [parse, lines_render located named, toList_renderLines, List.cons_append, readLines,
    Line.read_initial (named.initial located)]
  simp only [Bool.false_and, Bool.false_eq_true, if_false]
  rw [show (false || (Line.initial (automaton.nameOf automaton.initial)).isInitial) = true from rfl,
    others]
  rfl

theorem parse_render_ne_ok (located : automaton.Located) (named : automaton.Named)
    {edge : DraftEdge} (member : edge ∈ automaton.writtenEdges)
    (keyword : edge.source = "init" ∨ edge.source = "accept") (parsed : Automaton) :
    parse automaton.render ≠ .ok parsed := by
  intro read
  unfold parse at read
  split at read
  · cases read
  rename_i lines readAll
  rw [lines_render located named, toList_renderLines] at readAll
  have readOne : Line.read (edge.source.toList ++ ' ' :: Line.arrowText edge.guard edge.target) ∈
      lines.map Except.ok := by
    rw [← map_read_of_readLines readAll]
    apply List.mem_map_of_mem
    simp only [List.mem_cons, List.mem_append, List.mem_map]
    exact .inl (.inr (.inr ⟨edge, member, rfl⟩))
  obtain ⟨line, _, same⟩ := List.mem_map.1 readOne
  obtain ⟨_, guard, isTarget⟩ := named.written located member
  exact Line.read_keyword_edge_ne_ok guard isTarget keyword line same.symm

/-! ## What the lines make together -/

theorem mem_names_readBack {name : String} :
    name ∈ (Draft.ofLines automaton.readBack).names ↔
      name = automaton.nameOf automaton.initial ∨ name ∈ automaton.acceptingNames ∨
        ∃ edge ∈ automaton.writtenEdges, name = edge.source ∨ name = edge.target := by
  rw [Draft.mem_names_ofLines]
  simp [readBack, or_and_right, exists_or, Line.mentions]

theorem accepting_readBack :
    automaton.readBack.filterMap Line.accepting? = automaton.acceptingNames := by
  simp [readBack, List.filterMap_cons, Function.comp_def, Line.accepting?]

theorem edges_readBack :
    (Draft.ofLines automaton.readBack).edges =
      automaton.writtenEdges.map fun edge => { edge with guard := edge.guard.reread } := by
  simp [Draft.ofLines, readBack, List.filterMap_cons, Function.comp_def, Line.edge?]

theorem edgesFrom_readBack (name : String) :
    (Draft.ofLines automaton.readBack).edgesFrom name =
      (automaton.writtenEdges.filter (·.source == name)).map fun edge =>
        (edge.guard.reread, edge.target) := by
  rw [Draft.edgesFrom, edges_readBack, List.filter_map, List.map_map]
  rfl

/-- The lines of a written automaton always describe one. -/
theorem exists_build_readBack (wellFormed : automaton.WellFormed) :
    ∃ parsed, (Draft.ofLines automaton.readBack).build = .ok parsed := by
  apply Draft.exists_build Draft.nodup_names_ofLines rfl
  · exact mem_names_readBack.2 (.inl rfl)
  · exact fun edge => Draft.ends_declared
  · intro edge member
    rw [edges_readBack] at member
    obtain ⟨written, listed, rfl⟩ := List.mem_map.1 member
    obtain ⟨location, here, edge, leaves, rfl⟩ := mem_writtenEdges.1 listed
    have consistent := wellFormed.consistent here leaves
    by_cases isTrue : edge.guard = Guard.literalTrue
    · simp only [Guard.reread, if_pos isTrue]
      rfl
    · simpa only [Guard.reread, if_neg isTrue] using consistent

theorem portrait?_readBack {parsed : Automaton}
    (built : (Draft.ofLines automaton.readBack).build = .ok parsed) {name : String}
    {portrait : Portrait} :
    parsed.portrait? name = some portrait ↔
      name ∈ (Draft.ofLines automaton.readBack).names ∧
        ⟨automaton.acceptingNames.contains name,
          (automaton.writtenEdges.filter (·.source == name)).map fun edge =>
            (edge.guard.reread, edge.target)⟩ = portrait := by
  rw [Draft.portrait?_of_build built, edgesFrom_readBack, Draft.names_ofLines, Draft.ofLines,
    accepting_readBack]
  simp only [List.mem_map]
  constructor
  · rintro ⟨_, ⟨other, mentioned, rfl⟩, rfl, rfl⟩
    exact ⟨mentioned, rfl⟩
  · rintro ⟨mentioned, rfl⟩
    exact ⟨_, ⟨name, mentioned, rfl⟩, rfl, rfl⟩

/-- Among items told apart by a key, only one contributes what has its key. -/
theorem flatMap_eq_of_nodup {items : List Location} (distinct : (items.map (·.name)).Nodup)
    {parts : Location → List DraftEdge} {item : Location} (member : item ∈ items)
    (elsewhere : ∀ other ∈ items, other.name ≠ item.name → parts other = []) :
    items.flatMap parts = parts item := by
  induction items with
  | nil => cases member
  | cons first rest inductionHypothesis =>
      rw [List.map_cons, List.nodup_cons] at distinct
      have others := fun other listed => elsewhere other (List.mem_cons_of_mem first listed)
      rw [List.flatMap_cons]
      rcases List.mem_cons.1 member with rfl | listed
      · have nothing : rest.flatMap parts = [] := by
          rw [List.flatMap_eq_nil_iff]
          intro other listed
          apply others other listed
          intro same
          exact distinct.1 (List.mem_map.2 ⟨other, listed, same⟩)
        rw [nothing, List.append_nil]
      · have nothing : parts first = [] := by
          apply elsewhere first List.mem_cons_self
          intro same
          exact distinct.1 (List.mem_map.2 ⟨item, listed, same.symm⟩)
        rw [nothing, List.nil_append]
        exact inductionHypothesis distinct.2 listed others

theorem filter_writtenEdges (distinct : automaton.names.Nodup) {location : Location}
    (listed : location ∈ automaton.locations.toList) :
    automaton.writtenEdges.filter (·.source == location.name) = location.edges.map fun edge =>
      ⟨location.name, edge.guard, automaton.nameOf edge.target⟩ := by
  rw [writtenEdges, List.filter_flatMap, flatMap_eq_of_nodup distinct listed]
  · simp [List.filter_map, Function.comp_def]
  · intro other _ different
    simp [List.filter_map, Function.comp_def, different]

theorem contains_acceptingNames (distinct : automaton.names.Nodup) {location : Location}
    (listed : location ∈ automaton.locations.toList) :
    automaton.acceptingNames.contains location.name = location.accepting := by
  rw [Bool.eq_iff_iff, List.contains_iff_mem, acceptingNames, List.mem_map]
  constructor
  · rintro ⟨other, chosen, same⟩
    obtain ⟨listedToo, accepts⟩ := List.mem_filter.1 chosen
    rwa [← location_eq_of_name distinct listedToo listed same]
  · intro accepts
    exact ⟨location, List.mem_filter.2 ⟨listed, accepts⟩, rfl⟩

theorem portrait?_eq_written (distinct : automaton.names.Nodup) {name : String}
    {portrait : Portrait} :
    automaton.portrait? name = some portrait ↔
      name ∈ automaton.names ∧
        ⟨automaton.acceptingNames.contains name,
          (automaton.writtenEdges.filter (·.source == name)).map fun edge =>
            (edge.guard, edge.target)⟩ = portrait := by
  have portrayed {location : Location} (listed : location ∈ automaton.locations.toList) :
      ⟨automaton.acceptingNames.contains location.name,
        (automaton.writtenEdges.filter (·.source == location.name)).map fun edge =>
          (edge.guard, edge.target)⟩ = automaton.portray location := by
    rw [contains_acceptingNames distinct listed, filter_writtenEdges distinct listed, List.map_map]
    rfl
  rw [portrait?_eq_some_iff distinct]
  constructor
  · rintro ⟨location, listed, rfl, rfl⟩
    exact ⟨List.mem_map_of_mem listed, portrayed listed⟩
  · rintro ⟨member, rfl⟩
    obtain ⟨location, listed, rfl⟩ := List.mem_map.1 member
    exact ⟨location, listed, rfl, (portrayed listed).symm⟩

theorem mem_names_of_readBack (located : automaton.Located) {name : String}
    (mentioned : name ∈ (Draft.ofLines automaton.readBack).names) : name ∈ automaton.names := by
  rcases mem_names_readBack.1 mentioned with rfl | accepts | ⟨edge, listed, atEnd⟩
  · obtain ⟨location, here⟩ := located.initial
    exact nameOf_mem here
  · obtain ⟨location, listed, rfl⟩ := List.mem_map.1 accepts
    exact List.mem_map_of_mem (List.mem_filter.1 listed).1
  · obtain ⟨location, here, edge, leaves, rfl⟩ := mem_writtenEdges.1 listed
    rcases atEnd with rfl | rfl
    · exact List.mem_map_of_mem here
    · obtain ⟨place, there⟩ := location_mem_iff.1 here
      obtain ⟨reached, target⟩ := located.target there leaves
      exact nameOf_mem target

/-- What is read differs by the locations that nothing mentions and by the
guards that are not read as they are. -/
theorem renumbered_iff (wellFormed : automaton.WellFormed) {parsed : Automaton}
    (built : (Draft.ofLines automaton.readBack).build = .ok parsed) :
    parsed.Renumbered automaton ↔
      (∀ name ∈ automaton.names, name ∈ (Draft.ofLines automaton.readBack).names) ∧
        ∀ edge ∈ automaton.writtenEdges, edge.guard ≠ Guard.literalTrue := by
  have names := Draft.names_of_build built
  constructor
  · intro same
    have mentioned : ∀ name ∈ automaton.names, name ∈ (Draft.ofLines automaton.readBack).names := by
      intro name member
      rw [← names]
      exact same.names.mem_iff.2 member
    refine ⟨mentioned, fun edge listed isTrue => ?_⟩
    obtain ⟨location, here, _, _, from_⟩ := mem_writtenEdges.1 listed
    have member : edge.source ∈ automaton.names := by
      rw [← from_]
      exact List.mem_map_of_mem here
    have written := (portrait?_eq_written wellFormed.distinct).2 ⟨member, rfl⟩
    rw [← same.portrait, portrait?_readBack built, Portrait.mk.injEq] at written
    have rereads := List.map_inj_left.1 written.2.2 edge
      (List.mem_filter.2 ⟨listed, beq_self_eq_true _⟩)
    rw [Prod.mk.injEq, Guard.reread, if_pos isTrue, isTrue] at rereads
    exact absurd rereads.1 (by decide)
  · rintro ⟨mentioned, literal⟩
    have sameNames (name : String) :
        name ∈ (Draft.ofLines automaton.readBack).names ↔ name ∈ automaton.names :=
      ⟨mem_names_of_readBack wellFormed.toLocated, mentioned name⟩
    constructor
    · rw [names]
      exact (List.perm_ext_iff_of_nodup Draft.nodup_names_ofLines wellFormed.distinct).2 sameNames
    · have initial := Draft.nameOf_initial_of_build built
      exact (Option.some.inj initial).symm
    · intro name
      have rereads : (automaton.writtenEdges.filter (·.source == name)).map
          (fun edge => (edge.guard.reread, edge.target)) =
            (automaton.writtenEdges.filter (·.source == name)).map
              fun edge => (edge.guard, edge.target) := by
        apply List.map_congr_left
        intro edge listed
        rw [Guard.reread, if_neg (literal edge (List.mem_filter.1 listed).1)]
      apply Option.ext
      intro portrait
      rw [portrait?_readBack built, portrait?_eq_written wellFormed.distinct, sameNames, rereads]

/-! ## Automata that can be written -/

/-- Whether the text format can express an automaton. -/
structure Printable (automaton : Automaton) : Prop extends automaton.Named where
  mentioned {place : LocationId} {location : Location} :
    automaton.location? place = some location →
      place = automaton.initial ∨ location.accepting = true ∨ location.edges ≠ [] ∨
        ∃ source ∈ automaton.locations.toList, ∃ edge ∈ source.edges, edge.target = place
  keywords {location : Location} :
    location ∈ automaton.locations.toList → location.edges ≠ [] →
      location.name ≠ "init" ∧ location.name ≠ "accept"
  literals {location : Location} {edge : AutomatonEdge} :
    location ∈ automaton.locations.toList → edge ∈ location.edges → edge.guard ≠ Guard.literalTrue

theorem nameOf_inj (distinct : automaton.names.Nodup) {first second : LocationId}
    {here there : Location} (foundFirst : automaton.location? first = some here)
    (foundSecond : automaton.location? second = some there)
    (same : automaton.nameOf first = automaton.nameOf second) : first = second := by
  have named {place : LocationId} {location : Location}
      (found : automaton.location? place = some location) :
      automaton.names[place.index]? = some (automaton.nameOf place) := by
    rw [nameOf_of_location? found, names, List.getElem?_map, Array.getElem?_toList]
    exact congrArg (Option.map (·.name)) found
  obtain ⟨boundFirst, nameFirst⟩ := List.getElem?_eq_some_iff.1 (named foundFirst)
  obtain ⟨boundSecond, nameSecond⟩ := List.getElem?_eq_some_iff.1 (named foundSecond)
  have sameIndex := (List.getElem_inj distinct).1 (nameFirst.trans (same.trans nameSecond.symm))
  cases first
  cases second
  exact congrArg LocationId.mk sameIndex

/-- A location is mentioned in its text if it is initial, accepting or an end of
a transition. -/
theorem mem_names_readBack_iff (wellFormed : automaton.WellFormed) {place : LocationId}
    {location : Location} (here : automaton.location? place = some location) :
    location.name ∈ (Draft.ofLines automaton.readBack).names ↔
      place = automaton.initial ∨ location.accepting = true ∨ location.edges ≠ [] ∨
        ∃ source ∈ automaton.locations.toList, ∃ edge ∈ source.edges, edge.target = place := by
  have listed := location_mem_iff.2 ⟨place, here⟩
  have accepts := contains_acceptingNames wellFormed.distinct listed
  have leaves := filter_writtenEdges wellFormed.distinct listed
  rw [mem_names_readBack, ← accepts, List.contains_iff_mem]
  constructor
  · rintro (isInitial | accepting | ⟨written, member, isSource | isTarget⟩)
    · obtain ⟨initial, there⟩ := wellFormed.initial
      rw [← nameOf_of_location? here] at isInitial
      exact .inl (nameOf_inj wellFormed.distinct here there isInitial)
    · exact .inr (.inl accepting)
    · refine .inr (.inr (.inl fun nothing => ?_))
      rw [nothing, List.map_nil, List.filter_eq_nil_iff] at leaves
      exact leaves written member (beq_iff_eq.2 isSource.symm)
    · obtain ⟨source, listedSource, edge, leavesSource, rfl⟩ := mem_writtenEdges.1 member
      obtain ⟨start, atStart⟩ := location_mem_iff.1 listedSource
      obtain ⟨reached, there⟩ := wellFormed.target atStart leavesSource
      rw [← nameOf_of_location? here] at isTarget
      exact .inr (.inr (.inr ⟨source, listedSource, edge, leavesSource,
        (nameOf_inj wellFormed.distinct here there isTarget).symm⟩))
  · rintro (rfl | accepting | someEdge | ⟨source, listedSource, edge, leavesSource, rfl⟩)
    · exact .inl (nameOf_of_location? here).symm
    · exact .inr (.inl accepting)
    · obtain ⟨edge, member⟩ := List.exists_mem_of_ne_nil _ someEdge
      exact .inr (.inr ⟨_, mem_writtenEdges.2 ⟨location, listed, edge, member, rfl⟩, .inl rfl⟩)
    · exact .inr (.inr ⟨_, mem_writtenEdges.2 ⟨source, listedSource, edge, leavesSource, rfl⟩,
        .inr (nameOf_of_location? here).symm⟩)

/-- The names in an automaton that reading gives back, up to numbers, can all be
read. -/
theorem named_of_renumbered (wellFormed : automaton.WellFormed) {text : String}
    {parsed : Automaton} (read : parse text = .ok parsed) (same : parsed.Renumbered automaton) :
    automaton.Named := by
  obtain ⟨lines, named, built⟩ := named_of_parse read
  constructor
  · intro location listed
    have member : location.name ∈ parsed.names := same.names.mem_iff.2 (List.mem_map_of_mem listed)
    rw [Draft.names_of_build built] at member
    obtain ⟨line, written, mentioned⟩ := Draft.mem_names_ofLines.1 member
    exact (named line written).mentions mentioned
  · intro proposition member
    obtain ⟨location, listed, edge, leaves, inGuard⟩ := mem_propositions.1 member
    have portrayed := (portrait?_eq_some_iff wellFormed.distinct).2 ⟨location, listed, rfl, rfl⟩
    rw [← same.portrait, Draft.portrait?_of_build built] at portrayed
    obtain ⟨declared, _, _, equal⟩ := portrayed
    have inPortrait : (edge.guard, automaton.nameOf edge.target) ∈
        (Draft.ofLines lines).edgesFrom location.name := by
      rw [show (Draft.ofLines lines).edgesFrom location.name = _ from congrArg Portrait.edges equal]
      exact List.mem_map_of_mem leaves
    obtain ⟨written, chosen, sameEdge⟩ := List.mem_map.1 inPortrait
    obtain ⟨line, inText, isEdge⟩ := Draft.mem_edges_ofLines.1 (List.mem_filter.1 chosen).1
    have guard := (named line inText).guard isEdge
    rw [(Prod.mk.inj sameEdge).1] at guard
    exact inGuard.elim guard.positive guard.negative

/-- An automaton that was built is read as it was written, up to the numbers of
its locations, exactly when the text format can express it. -/
theorem parse_render_renumbered_iff {draft : Draft} (built : draft.build = .ok automaton) :
    (∃ parsed, parse automaton.render = .ok parsed ∧ parsed.Renumbered automaton) ↔
      automaton.Printable := by
  have wellFormed := Draft.wellFormed_of_build built
  constructor
  · rintro ⟨parsed, read, same⟩
    have named := named_of_renumbered wellFormed read same
    have noKeyword : ∀ edge ∈ automaton.writtenEdges,
        edge.source ≠ "init" ∧ edge.source ≠ "accept" := by
      intro edge member
      by_contra keyword
      exact parse_render_ne_ok wellFormed.toLocated named member (by tauto) parsed read
    rw [parse_render wellFormed.toLocated named noKeyword] at read
    obtain ⟨mentioned, literal⟩ := (renumbered_iff wellFormed read).1 same
    refine ⟨named, fun {place location} here => ?_, fun {location} listed someEdge => ?_,
      fun {location edge} listed leaves => ?_⟩
    · exact (mem_names_readBack_iff wellFormed here).1
        (mentioned _ (List.mem_map_of_mem (location_mem_iff.2 ⟨place, here⟩)))
    · obtain ⟨edge, leaves⟩ := List.exists_mem_of_ne_nil _ someEdge
      exact noKeyword _ (mem_writtenEdges.2 ⟨location, listed, edge, leaves, rfl⟩)
    · exact literal _ (mem_writtenEdges.2 ⟨location, listed, edge, leaves, rfl⟩)
  · intro printable
    have noKeyword : ∀ edge ∈ automaton.writtenEdges,
        edge.source ≠ "init" ∧ edge.source ≠ "accept" := by
      intro written member
      obtain ⟨location, listed, edge, leaves, rfl⟩ := mem_writtenEdges.1 member
      exact printable.keywords listed (List.ne_nil_of_mem leaves)
    obtain ⟨parsed, read⟩ := exists_build_readBack wellFormed
    refine ⟨parsed, ?_, (renumbered_iff wellFormed read).2 ⟨fun name member => ?_,
      fun written member => ?_⟩⟩
    · rw [parse_render wellFormed.toLocated printable.toNamed noKeyword]
      exact read
    · obtain ⟨location, listed, rfl⟩ := List.mem_map.1 member
      obtain ⟨place, here⟩ := location_mem_iff.1 listed
      exact (mem_names_readBack_iff wellFormed here).2 (printable.mentioned here)
    · obtain ⟨location, listed, edge, leaves, rfl⟩ := mem_writtenEdges.1 member
      exact printable.literals listed leaves

/-- A draft whose locations are not declared in the order of their mention; one
of them is called `accept`, and `true` is a proposition in a longer guard. -/
def watched : Draft where
  locations := [⟨"accept", true⟩, ⟨"run", false⟩]
  initial := some "run"
  edges := [⟨"run", .always, "run"⟩, ⟨"run", (Guard.always.require "true").forbid "p", "accept"⟩]

theorem parse_render_watched :
    ∃ automaton, watched.build = .ok automaton ∧ automaton.Printable ∧
      ∃ parsed, parse automaton.render = .ok parsed ∧ parsed.Renumbered automaton := by
  have built : watched.build = .ok ⟨#[⟨"accept", true, []⟩, ⟨"run", false,
      [⟨.always, ⟨1⟩⟩, ⟨(Guard.always.require "true").forbid "p", ⟨0⟩⟩]⟩], ⟨1⟩⟩ := by
    decide +kernel
  refine ⟨_, built, ?printable, (parse_render_renumbered_iff built).2 ?printable⟩
  constructor
  · constructor
    · decide +kernel
    · decide +kernel
  · intro place location here
    obtain ⟨_ | _ | index⟩ := place
    · cases here
      decide +kernel
    · cases here
      decide +kernel
    · cases here
  · decide +kernel
  · have apart : ∀ location ∈ [(⟨"accept", true, []⟩ : Location), ⟨"run", false,
        [⟨.always, ⟨1⟩⟩, ⟨(Guard.always.require "true").forbid "p", ⟨0⟩⟩]⟩],
        ∀ edge ∈ location.edges, edge.guard ≠ Guard.literalTrue := by
      decide +kernel
    exact fun {location edge} listed leaves => apart location listed edge leaves

end Automaton

end OnTheFly
