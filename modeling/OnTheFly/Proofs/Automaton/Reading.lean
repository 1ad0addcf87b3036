import OnTheFly.Proofs.Automaton.Builder
import OnTheFly.Proofs.Automaton.Grammar
import OnTheFly.Proofs.Automaton.RoundTrip

/-!
Contract: what a text in the format of automata means, and what is wrong with
one that means nothing.

Owns: the lines that a text spells, the automaton that they represent, the
diagnosis of a text that is refused, and that reading a text gives the one or
the other.
-/

set_option autoImplicit false

namespace OnTheFly

open Text

/-! ## Texts that mean an automaton -/

/-- Whether a text consists of these lines. -/
def SpellsLines (text : String) (lines : List Line) : Prop :=
  ∃ texts, IsLines text.toList texts ∧ List.Forall₂ SpellsLine texts lines

/-- Whether lines fit together: one of them names the initial location, and no
guard has a proposition in both signs. -/
structure Coherent (lines : List Line) : Prop where
  initial : lines.countP Line.isInitial = 1
  consistent {written : DraftEdge} : .edge written ∈ lines →
    ∀ proposition ∈ written.guard.positive, ¬ proposition ∈ written.guard.negative

/-- Whether an automaton is what lines say: their names are its locations, each
once and in order of first mention. -/
structure Automaton.Represents (automaton : Automaton) (lines : List Line) : Prop
    extends automaton.Located where
  mentioned : automaton.names = (lines.flatMap Line.mentions).eraseDups
  accepting {location : Location} : location ∈ automaton.locations.toList →
    (location.accepting = true ↔ .accepting location.name ∈ lines)
  initialName : .initial (automaton.nameOf automaton.initial) ∈ lines
  leaving {location : Location} : location ∈ automaton.locations.toList →
    location.edges.map (fun edge => (edge.guard, automaton.nameOf edge.target)) =
      ((lines.filterMap Line.edge?).filter (·.source == location.name)).map fun written =>
        (written.guard, written.target)

/-! ## Texts that are refused -/

/-- What is wrong with a line that follows others. -/
inductive Malformed (earlier : List Line) (text : List Char) : LineFault → Prop where
  | flawed {content : List Char} {fault : LineFault} (counts : IsContent text content)
      (flawed : Line.Flawed content fault) : Malformed earlier text fault
  | secondInitial {first second : String} (before : .initial first ∈ earlier)
      (again : SpellsLine text (.initial second)) : Malformed earlier text .secondInitial

/-- Why a text is refused. The first malformed line comes before all else, then
a lack of locations, then a lack of an initial one, and last the first guard
that contradicts itself. -/
inductive Diagnosis (text : String) : AutomatonError → Prop where
  | malformed {earlier later : List (List Char)} {line : List Char} {lines : List Line}
      {fault : LineFault} (cut : IsLines text.toList (earlier ++ line :: later))
      (spelt : List.Forall₂ SpellsLine earlier lines) (once : lines.countP Line.isInitial ≤ 1)
      (wrong : Malformed lines line fault) :
      Diagnosis text (.syntaxError (earlier.length + 1) fault)
  | noLocations {lines : List Line} (spelt : SpellsLines text lines)
      (nothing : ∀ line ∈ lines, line = .empty) : Diagnosis text .noLocations
  | missingInitial {lines : List Line} (spelt : SpellsLines text lines)
      (something : ∃ line ∈ lines, line ≠ .empty) (noInitial : lines.countP Line.isInitial = 0) :
      Diagnosis text .missingInitial
  | contradictory {earlier later : List Line} {written : DraftEdge} {proposition : String}
      (spelt : SpellsLines text (earlier ++ .edge written :: later))
      (once : (earlier ++ .edge written :: later).countP Line.isInitial = 1)
      (consistent : ∀ other, .edge other ∈ earlier →
        ∀ name ∈ other.guard.positive, ¬ name ∈ other.guard.negative)
      (clash : written.guard.LeastClash proposition) :
      Diagnosis text (.contradictoryGuard written.source written.target proposition)

/-! ## Reading line by line -/

namespace Line

theorem isInitial_iff {line : Line} : line.isInitial = true ↔ ∃ name, line = .initial name := by
  cases line <;> simp [isInitial]

theorem any_isInitial_iff {lines : List Line} :
    lines.any isInitial = true ↔ ∃ name, .initial name ∈ lines := by
  simp [List.any_eq_true, isInitial_iff]

theorem countP_isInitial_eq_zero_iff {lines : List Line} :
    lines.countP isInitial = 0 ↔ lines.any isInitial = false := by
  simp [List.countP_eq_zero]

/-- A line can follow if it is not the second one that names the initial
location. -/
theorem once_append_iff {before : List Line} {line : Line} :
    (before ++ [line]).countP isInitial ≤ 1 ↔
      before.countP isInitial ≤ 1 ∧ (before.any isInitial && line.isInitial) = false := by
  rw [List.countP_append, List.countP_singleton]
  cases any : before.any isInitial with
  | false =>
      rw [countP_isInitial_eq_zero_iff.2 any]
      cases line.isInitial <;> simp
  | true =>
      have positive : 0 < before.countP isInitial := by
        rw [List.countP_pos_iff, ← List.any_eq_true]
        exact any
      cases line.isInitial
      · simp
      · simp only [if_true, Bool.and_self, Bool.true_eq_false, and_false, iff_false]
        omega

end Line

namespace Automaton

variable {number : Nat} {before : List Line} {text : List Char} {texts : List (List Char)}

/-- A line is malformed after others, or can follow them. -/
theorem line_cases (once : before.countP Line.isInitial ≤ 1) (text : List Char) :
    (∃ fault, Malformed before text fault) ∨
      ∃ line, SpellsLine text line ∧ (before ++ [line]).countP Line.isInitial ≤ 1 := by
  cases read : Line.read text with
  | error fault =>
      obtain ⟨content, counts, flawed⟩ := Line.read_eq_error_iff.1 read
      exact .inl ⟨fault, .flawed counts flawed⟩
  | ok line =>
      have spelt := Line.read_eq_ok_iff.1 read
      cases twice : before.any Line.isInitial && line.isInitial with
      | false => exact .inr ⟨line, spelt, Line.once_append_iff.2 ⟨once, twice⟩⟩
      | true =>
          obtain ⟨seen, again⟩ := Bool.and_eq_true_iff.1 twice
          obtain ⟨first, member⟩ := Line.any_isInitial_iff.1 seen
          obtain ⟨second, rfl⟩ := Line.isInitial_iff.1 again
          exact .inl ⟨.secondInitial, .secondInitial member spelt⟩

theorem readLines_malformed {fault : LineFault} (wrong : Malformed before text fault) :
    readLines number (before.any Line.isInitial) (text :: texts) =
      .error (.syntaxError number fault) := by
  cases wrong with
  | flawed counts flawed => rw [readLines, Line.read_eq_error_iff.2 ⟨_, counts, flawed⟩]
  | secondInitial member again =>
      have seen := Line.any_isInitial_iff.2 ⟨_, member⟩
      rw [readLines, Line.read_eq_ok_iff.2 again]
      simp only
      rw [seen]
      rfl

theorem readLines_cons {line : Line} (spelt : SpellsLine text line)
    (once : (before ++ [line]).countP Line.isInitial ≤ 1) :
    readLines number (before.any Line.isInitial) (text :: texts) =
      (readLines (number + 1) ((before ++ [line]).any Line.isInitial) texts).map (line :: ·) := by
  have extended : (before ++ [line]).any Line.isInitial =
      (before.any Line.isInitial || line.isInitial) := by simp
  rw [readLines, Line.read_eq_ok_iff.2 spelt, extended]
  simp only
  rw [(Line.once_append_iff.1 once).2, if_neg Bool.false_ne_true]
  cases readLines (number + 1) (before.any Line.isInitial || line.isInitial) texts <;> rfl

/-- The lines that are read are those that the texts spell. The induction keeps
the lines already read, since a line may be wrong only because of them. -/
theorem readLines_eq_ok_iff {lines : List Line} (once : before.countP Line.isInitial ≤ 1) :
    readLines number (before.any Line.isInitial) texts = .ok lines ↔
      List.Forall₂ SpellsLine texts lines ∧ (before ++ lines).countP Line.isInitial ≤ 1 := by
  induction texts generalizing number before lines with
  | nil =>
      simp only [readLines, Except.ok.injEq, List.forall₂_nil_left_iff]
      constructor
      · rintro rfl
        exact ⟨rfl, by simpa using once⟩
      · rintro ⟨rfl, _⟩
        rfl
  | cons text texts inductionHypothesis =>
      rw [List.forall₂_cons_left_iff]
      constructor
      · intro read
        rcases line_cases once text with ⟨fault, wrong⟩ | ⟨line, spelt, onceMore⟩
        · rw [readLines_malformed wrong] at read
          cases read
        · rw [readLines_cons spelt onceMore] at read
          cases readOthers : readLines (number + 1) ((before ++ [line]).any Line.isInitial) texts with
          | error wrong =>
              rw [readOthers] at read
              cases read
          | ok others =>
              rw [readOthers] at read
              cases read
              obtain ⟨speltOthers, onceAll⟩ := (inductionHypothesis onceMore).1 readOthers
              rw [List.append_assoc] at onceAll
              exact ⟨⟨line, others, spelt, speltOthers, rfl⟩, onceAll⟩
      · rintro ⟨⟨line, others, spelt, speltOthers, rfl⟩, onceAll⟩
        rw [← List.singleton_append, ← List.append_assoc] at onceAll
        have onceMore : (before ++ [line]).countP Line.isInitial ≤ 1 := by
          rw [List.countP_append] at onceAll
          omega
        rw [readLines_cons spelt onceMore,
          (inductionHypothesis onceMore).2 ⟨speltOthers, onceAll⟩]
        rfl

/-- The first malformed line decides, and its number is in the error. -/
theorem readLines_eq_error_iff {error : AutomatonError}
    (once : before.countP Line.isInitial ≤ 1) :
    readLines number (before.any Line.isInitial) texts = .error error ↔
      ∃ earlier text later lines fault, texts = earlier ++ text :: later ∧
        List.Forall₂ SpellsLine earlier lines ∧
          (before ++ lines).countP Line.isInitial ≤ 1 ∧ Malformed (before ++ lines) text fault ∧
            error = .syntaxError (number + earlier.length) fault := by
  induction texts generalizing number before with
  | nil => simp [readLines]
  | cons text texts inductionHypothesis =>
      constructor
      · intro failed
        rcases line_cases once text with ⟨fault, wrong⟩ | ⟨line, spelt, onceMore⟩
        · rw [readLines_malformed wrong] at failed
          cases failed
          rw [← List.append_nil before] at once wrong
          exact ⟨[], text, texts, [], fault, rfl, .nil, once, wrong, rfl⟩
        · rw [readLines_cons spelt onceMore] at failed
          cases failedLater : readLines (number + 1) ((before ++ [line]).any Line.isInitial) texts with
          | ok others =>
              rw [failedLater] at failed
              cases failed
          | error wrong =>
              rw [failedLater] at failed
              cases failed
              obtain ⟨earlier, wrongText, later, lines, fault, rfl, speltEarlier, onceAll, wrong,
                rfl⟩ := (inductionHypothesis onceMore).1 failedLater
              rw [List.append_assoc, List.singleton_append] at onceAll wrong
              refine ⟨text :: earlier, wrongText, later, line :: lines, fault, rfl,
                .cons spelt speltEarlier, onceAll, wrong, ?_⟩
              rw [List.length_cons, Nat.add_comm earlier.length, Nat.add_assoc]
      · rintro ⟨earlier, wrongText, later, lines, fault, parts, speltEarlier, onceAll, wrong, rfl⟩
        cases speltEarlier with
        | nil =>
            cases parts
            rw [List.append_nil] at wrong
            exact readLines_malformed wrong
        | cons spelt others =>
            rename_i first line earlier lines
            cases parts
            rw [← List.singleton_append, ← List.append_assoc] at onceAll wrong
            have onceMore : (before ++ [line]).countP Line.isInitial ≤ 1 := by
              rw [List.countP_append] at onceAll
              omega
            have sameNumber : number + (text :: earlier).length = number + 1 + earlier.length := by
              rw [List.length_cons, Nat.add_comm earlier.length, Nat.add_assoc]
            rw [readLines_cons spelt onceMore, (inductionHypothesis onceMore).2
              ⟨_, _, _, _, _, rfl, others, onceAll, wrong, by rw [sameNumber]⟩]
            rfl

end Automaton

/-! ## Drafts of lines that fit together -/

/-- Names in order of first mention are the names without later mentions. -/
theorem firstMentions_eq (earlier names : List String) :
    firstMentions earlier names =
      earlier ++ (names.filter fun name => !earlier.contains name).eraseDups := by
  induction names generalizing earlier with
  | nil => simp [firstMentions]
  | cons name names inductionHypothesis =>
      rw [firstMentions, inductionHypothesis]
      by_cases known : name ∈ earlier
      · rw [if_pos known, List.filter_cons_of_neg (by simpa using known)]
      · have others : names.filter (fun other => !(earlier ++ [name]).contains other) =
            names.filter fun other => (!other == name) && !earlier.contains other := by
          apply List.filter_congr
          intro other _
          rw [Bool.eq_iff_iff]
          simp [and_comm]
        rw [if_neg known, List.filter_cons_of_pos (by simpa using known), List.eraseDups_cons,
          List.append_assoc, List.singleton_append, List.filter_filter, others]

namespace Draft

variable {lines : List Line} {automaton : Automaton}

theorem names_ofLines_eq_eraseDups :
    (ofLines lines).names = (lines.flatMap Line.mentions).eraseDups := by
  rw [names_ofLines, firstMentions_eq]
  simp

theorem locations_ofLines_eq_nil_iff :
    (ofLines lines).locations = [] ↔ ∀ line ∈ lines, line = .empty := by
  have nothing_iff : (ofLines lines).locations = [] ↔ ∀ name, name ∉ (ofLines lines).names := by
    rw [← List.eq_nil_iff_forall_not_mem, names, List.map_eq_nil_iff]
  simp only [nothing_iff, mem_names_ofLines, not_exists, not_and]
  constructor
  · intro nothing line listed
    cases line with
    | empty => rfl
    | initial name | accepting name => exact absurd List.mem_cons_self (nothing name _ listed)
    | edge written => exact absurd List.mem_cons_self (nothing written.source _ listed)
  · intro empty name line listed
    rw [empty line listed]
    exact List.not_mem_nil

theorem mem_of_initial_ofLines {name : String} (named : (ofLines lines).initial = some name) :
    .initial name ∈ lines := by
  obtain ⟨line, listed, found⟩ := List.exists_of_findSome?_eq_some named
  cases line with
  | initial other =>
      cases found
      exact listed
  | empty | accepting | edge => cases found

theorem initial_ofLines_eq_none_iff :
    (ofLines lines).initial = none ↔ lines.countP Line.isInitial = 0 := by
  rw [ofLines, List.findSome?_eq_none_iff, List.countP_eq_zero]
  refine forall₂_congr fun line _ => ?_
  cases line <;> simp [Line.initial?, Line.isInitial]

/-- Where one line names the initial location, it is the one that counts. -/
theorem initial_ofLines_eq_some_iff (once : lines.countP Line.isInitial = 1) {name : String} :
    (ofLines lines).initial = some name ↔ .initial name ∈ lines := by
  refine ⟨mem_of_initial_ofLines, fun listed => ?_⟩
  cases named : (ofLines lines).initial with
  | none =>
      rw [initial_ofLines_eq_none_iff] at named
      omega
  | some other =>
      rw [List.countP_eq_length_filter, List.length_eq_one_iff] at once
      obtain ⟨only, isOnly⟩ := once
      have same {name : String} (listed : .initial name ∈ lines) : .initial name = only := by
        rw [← List.mem_singleton, ← isOnly]
        exact List.mem_filter.2 ⟨listed, rfl⟩
      have equal := (same (mem_of_initial_ofLines named)).trans (same listed).symm
      cases equal
      rfl

theorem mem_edges_ofLines_iff {written : DraftEdge} :
    written ∈ (ofLines lines).edges ↔ .edge written ∈ lines := by
  rw [mem_edges_ofLines]
  constructor
  · rintro ⟨line, listed, found⟩
    cases line with
    | edge other =>
        cases found
        exact listed
    | empty | initial | accepting => cases found
  · intro listed
    exact ⟨_, listed, rfl⟩

/-- Lines declare all that they refer to. -/
theorem linked_ofLines : (ofLines lines).Linked where
  distinct := nodup_names_ofLines
  initial named := mem_names_ofLines.2 ⟨_, mem_of_initial_ofLines named, List.mem_cons_self⟩
  ends := ends_declared

theorem acceptable_ofLines_iff (once : lines.countP Line.isInitial ≤ 1) :
    (ofLines lines).Acceptable ↔ Coherent lines := by
  constructor
  · intro acceptable
    obtain ⟨name, _, named⟩ := acceptable.initial
    refine ⟨?_, fun {written} listed => ?_⟩
    · have some_ : lines.countP Line.isInitial ≠ 0 := by
        rw [ne_eq, ← initial_ofLines_eq_none_iff, named]
        exact Option.some_ne_none name
      omega
    · apply Guard.contradiction?_eq_none_iff_disjoint.1
      exact Guard.contradiction?_eq_none_iff.2
        (acceptable.satisfiable (mem_edges_ofLines_iff.2 listed))
  · intro coherent
    have some_ : (ofLines lines).initial ≠ none := by
      rw [ne_eq, initial_ofLines_eq_none_iff, coherent.initial]
      exact Nat.one_ne_zero
    obtain ⟨name, named⟩ := Option.ne_none_iff_exists'.1 some_
    have declared := linked_ofLines.initial named
    refine ⟨fun nothing => ?_, nodup_names_ofLines, ⟨name, declared, named⟩, ends_declared,
      fun member => ?_⟩
    · rw [names, nothing] at declared
      cases declared
    · apply Guard.contradiction?_eq_none_iff.1
      exact Guard.contradiction?_eq_none_iff_disjoint.2
        (coherent.consistent (mem_edges_ofLines_iff.1 member))

theorem describes_ofLines_iff (once : lines.countP Line.isInitial = 1) :
    (ofLines lines).Describes automaton ↔ automaton.Represents lines := by
  have accepts (name : String) :
      (lines.filterMap Line.accepting?).contains name = true ↔ .accepting name ∈ lines := by
    rw [List.contains_iff_mem, List.mem_filterMap]
    constructor
    · rintro ⟨line, listed, found⟩
      cases line with
      | accepting other =>
          cases found
          exact listed
      | empty | initial | edge => cases found
    · intro listed
      exact ⟨_, listed, rfl⟩
  constructor
  · intro describes
    refine ⟨describes.toLocated, ?_, fun {location} listed => ?_, ?_, describes.leaving⟩
    · rw [describes.names, names_ofLines_eq_eraseDups]
    · have declared : (⟨location.name, location.accepting⟩ : DraftLocation) ∈
          (ofLines lines).locations := by
        rw [← describes.declared]
        exact List.mem_map_of_mem listed
      obtain ⟨name, _, same⟩ := List.mem_map.1 declared
      obtain ⟨rfl, accepting⟩ := DraftLocation.mk.inj same
      rw [← accepting]
      exact accepts location.name
    · exact (initial_ofLines_eq_some_iff once).1 describes.initialName
  · intro represents
    refine ⟨represents.toLocated, ?_, ?_, represents.leaving⟩
    · have named := names_ofLines_eq_eraseDups.trans represents.mentioned.symm
      rw [names_ofLines] at named
      rw [ofLines, named, Automaton.names, List.map_map]
      apply List.map_congr_left
      intro location listed
      rw [Function.comp_apply, DraftLocation.mk.injEq, Bool.eq_iff_iff,
        represents.accepting listed, accepts]
      exact ⟨rfl, Iff.rfl⟩
    · exact (initial_ofLines_eq_some_iff once).2 represents.initialName

/-- The first transition line whose guard contradicts itself decides. -/
theorem resolveEdges_ofLines_eq_error_iff {error : AutomatonError} :
    (ofLines lines).resolveEdges (ofLines lines).edges = .error error ↔
      ∃ earlier written later proposition, lines = earlier ++ .edge written :: later ∧
        (∀ other, .edge other ∈ earlier →
          ∀ name ∈ other.guard.positive, ¬ name ∈ other.guard.negative) ∧
          written.guard.LeastClash proposition ∧
            error = .contradictoryGuard written.source written.target proposition := by
  rw [linked_ofLines.resolveEdges_eq_error_iff]
  simp only [← Guard.contradiction?_eq_some_iff, ← Guard.contradiction?_eq_none_iff_disjoint]
  constructor
  · rintro ⟨earlier, written, later, proposition, parts, clean, clash, rfl⟩
    obtain ⟨front, back, rfl, rfl, rest⟩ := List.filterMap_eq_append_iff.1 parts
    obtain ⟨skipped, line, behind, rfl, silent, found, _⟩ := List.filterMap_eq_cons_iff.1 rest
    obtain rfl : line = .edge written := by
      cases line with
      | edge other =>
          cases found
          rfl
      | empty | initial | accepting => cases found
    refine ⟨front ++ skipped, written, behind, proposition, by simp, ?_, clash, rfl⟩
    intro other listed
    rcases List.mem_append.1 listed with inFront | inSkipped
    · exact clean other (List.mem_filterMap.2 ⟨_, inFront, rfl⟩)
    · have nothing := silent _ inSkipped
      cases nothing
  · rintro ⟨earlier, written, later, proposition, rfl, clean, clash, rfl⟩
    refine ⟨(ofLines earlier).edges, written, (ofLines later).edges, proposition, ?_, ?_, clash,
      rfl⟩
    · simp [ofLines, List.filterMap_cons, Line.edge?]
    · exact fun other listed => clean other (mem_edges_ofLines_iff.1 listed)

end Draft

/-! ## Reading a text -/

namespace Automaton

variable {text : String} {automaton : Automaton}

theorem readLines_text_eq_ok_iff {lines : List Line} :
    readLines 1 false (Text.lines text.toList) = .ok lines ↔
      SpellsLines text lines ∧ lines.countP Line.isInitial ≤ 1 := by
  have read := @readLines_eq_ok_iff 1 [] (Text.lines text.toList) lines (Nat.zero_le 1)
  rw [List.nil_append] at read
  refine read.trans (and_congr_left fun _ => ?_)
  constructor
  · intro spelt
    exact ⟨_, isLines_iff.2 rfl, spelt⟩
  · rintro ⟨texts, cut, spelt⟩
    rwa [isLines_iff.1 cut]

theorem parse_eq_ok_iff :
    parse text = .ok automaton ↔
      ∃ lines, SpellsLines text lines ∧ lines.countP Line.isInitial ≤ 1 ∧
        (Draft.ofLines lines).build = .ok automaton := by
  simp only [← and_assoc, ← readLines_text_eq_ok_iff]
  unfold parse
  cases readLines 1 false (Text.lines text.toList) <;> simp

theorem parse_eq_error_iff {error : AutomatonError} :
    parse text = .error error ↔
      readLines 1 false (Text.lines text.toList) = .error error ∨
        ∃ lines, SpellsLines text lines ∧ lines.countP Line.isInitial ≤ 1 ∧
          (Draft.ofLines lines).build = .error error := by
  simp only [← and_assoc, ← readLines_text_eq_ok_iff]
  unfold parse
  cases readLines 1 false (Text.lines text.toList) <;> simp

theorem parse_eq_ok_iff_represents :
    parse text = .ok automaton ↔
      ∃ lines, SpellsLines text lines ∧ Coherent lines ∧ automaton.Represents lines := by
  rw [parse_eq_ok_iff]
  refine exists_congr fun lines => and_congr_right fun _ => ?_
  rw [Draft.build_eq_ok_iff_describes]
  constructor
  · rintro ⟨once, acceptable, describes⟩
    have coherent := (Draft.acceptable_ofLines_iff once).1 acceptable
    exact ⟨coherent, (Draft.describes_ofLines_iff coherent.initial).1 describes⟩
  · rintro ⟨coherent, represents⟩
    have once : lines.countP Line.isInitial ≤ 1 := by rw [coherent.initial]
    exact ⟨once, (Draft.acceptable_ofLines_iff once).2 coherent,
      (Draft.describes_ofLines_iff coherent.initial).2 represents⟩

/-- A text is read exactly if its lines are of the format and fit together, and
then as the automaton that they represent. -/
theorem parse_reads_format (text : String) :
    ((∃ automaton, parse text = .ok automaton) ↔
        ∃ lines, SpellsLines text lines ∧ Coherent lines) ∧
      ∀ automaton, parse text = .ok automaton ↔
        ∃ lines, SpellsLines text lines ∧ Coherent lines ∧ automaton.Represents lines := by
  refine ⟨⟨?_, ?_⟩, fun automaton => parse_eq_ok_iff_represents⟩
  · rintro ⟨automaton, read⟩
    obtain ⟨lines, spelt, coherent, _⟩ := parse_eq_ok_iff_represents.1 read
    exact ⟨lines, spelt, coherent⟩
  · rintro ⟨lines, spelt, coherent⟩
    have once : lines.countP Line.isInitial ≤ 1 := by rw [coherent.initial]
    obtain ⟨automaton, built⟩ :=
      Draft.exists_build_iff.2 ((Draft.acceptable_ofLines_iff once).2 coherent)
    exact ⟨automaton, parse_eq_ok_iff.2 ⟨lines, spelt, once, built⟩⟩

example : parse "init a-\n  a-->b : !  p&&true # loop\n" =
    .ok ⟨#[⟨"a-", false, [⟨(Guard.always.forbid "p").require "true", ⟨1⟩⟩]⟩, ⟨"b", false, []⟩],
      ⟨0⟩⟩ := by
  decide +kernel

theorem parse_eq_error_iff_diagnosis {error : AutomatonError} :
    parse text = .error error ↔ Diagnosis text error := by
  rw [parse_eq_error_iff]
  have malformed := @readLines_eq_error_iff 1 [] (Text.lines text.toList) error (Nat.zero_le 1)
  simp only [List.nil_append] at malformed
  change readLines 1 false _ = _ ↔ _ at malformed
  rw [malformed]
  constructor
  · rintro (⟨earlier, line, later, lines, fault, parts, spelt, once, wrong, rfl⟩ |
      ⟨lines, spelt, once, failed⟩)
    · rw [Nat.add_comm]
      exact .malformed (isLines_iff.2 parts) spelt once wrong
    · rcases Draft.linked_ofLines.build_eq_error_iff.1 failed with ⟨nothing, rfl⟩ |
        ⟨something, noInitial, rfl⟩ | ⟨someInitial, wrongEdge⟩
      · exact .noLocations spelt (Draft.locations_ofLines_eq_nil_iff.1 nothing)
      · rw [ne_eq, Draft.locations_ofLines_eq_nil_iff] at something
        push Not at something
        exact .missingInitial spelt something (Draft.initial_ofLines_eq_none_iff.1 noInitial)
      · rw [ne_eq, Draft.initial_ofLines_eq_none_iff] at someInitial
        obtain ⟨earlier, written, later, proposition, rfl, clean, clash, rfl⟩ :=
          Draft.resolveEdges_ofLines_eq_error_iff.1 wrongEdge
        exact .contradictory spelt (by omega) clean clash
  · intro diagnosis
    cases diagnosis with
    | malformed cut spelt once wrong =>
        exact .inl ⟨_, _, _, _, _, isLines_iff.1 cut, spelt, once, wrong, by rw [Nat.add_comm]⟩
    | noLocations spelt nothing =>
        rename_i lines
        have once : lines.countP Line.isInitial ≤ 1 := by
          rw [List.countP_eq_zero.2 fun line listed => by simp [nothing line listed, Line.isInitial]]
          exact Nat.zero_le 1
        exact .inr ⟨lines, spelt, once, Draft.linked_ofLines.build_eq_error_iff.2
          (.inl ⟨Draft.locations_ofLines_eq_nil_iff.2 nothing, rfl⟩)⟩
    | missingInitial spelt something noInitial =>
        rename_i lines
        refine .inr ⟨lines, spelt, by omega, Draft.linked_ofLines.build_eq_error_iff.2
          (.inr (.inl ⟨?_, Draft.initial_ofLines_eq_none_iff.2 noInitial, rfl⟩))⟩
        rw [ne_eq, Draft.locations_ofLines_eq_nil_iff]
        push Not
        exact something
    | contradictory spelt once consistent clash =>
        rename_i earlier later written proposition
        refine .inr ⟨_, spelt, once.le, Draft.linked_ofLines.build_eq_error_iff.2
          (.inr (.inr ⟨?_, Draft.resolveEdges_ofLines_eq_error_iff.2
            ⟨earlier, written, later, proposition, rfl, consistent, clash, rfl⟩⟩))⟩
        rw [ne_eq, Draft.initial_ofLines_eq_none_iff, once]
        exact Nat.one_ne_zero

/-- A text is refused for the first thing that is wrong with it. That a location
is declared twice or not at all is never wrong, since lines declare what they
mention. -/
theorem parse_refuses_by_diagnosis (text : String) :
    (∀ error, parse text = .error error ↔ Diagnosis text error) ∧
      ∀ name, parse text ≠ .error (.duplicateLocation name) ∧
        parse text ≠ .error (.unknownLocation name) := by
  refine ⟨fun error => parse_eq_error_iff_diagnosis, fun name => ⟨?_, ?_⟩⟩
  · rw [ne_eq, parse_eq_error_iff_diagnosis]
    intro diagnosis
    cases diagnosis
  · rw [ne_eq, parse_eq_error_iff_diagnosis]
    intro diagnosis
    cases diagnosis

example : parse "init a\na -> b : p && !p\n\ninit b\n-> : &&\n" =
    .error (.syntaxError 4 .secondInitial) := by
  decide +kernel

end Automaton

end OnTheFly
