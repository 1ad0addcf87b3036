import Mathlib.Data.List.Sort
import OnTheFly.Automaton.Format
import OnTheFly.Proofs.Text.Marks

/-!
Contract: what is read in a line that was written.

Owns: names and the characters that never stand in them, the literals of a
guard as they are written and read, and the meaning of each kind of written
line.

Two words are read in their own way. A guard of the one literal `true` reads as
the guard without literals. A transition line of a location called `init` or
`accept` starts like another kind of line and is no line of the format.
-/

set_option autoImplicit false

namespace OnTheFly

open Text

/-! ## Names -/

theorem Text.Ranges.covers_eq_false {first second : Ranges}
    (apart : ∀ range ∈ first, ∀ other ∈ second, range.2 < other.1 ∨ other.2 < range.1)
    {character : Char} (covered : second.covers character = true) :
    first.covers character = false := by
  simp only [covers, List.any_eq_true, Bool.and_eq_true, decide_eq_true_eq] at covered
  obtain ⟨other, memberOther, above, below⟩ := covered
  rw [Bool.eq_false_iff]
  intro coveredToo
  simp only [covers, List.any_eq_true, Bool.and_eq_true, decide_eq_true_eq] at coveredToo
  obtain ⟨range, member, aboveToo, belowToo⟩ := coveredToo
  have between := apart range member other memberOther
  omega

theorem isBlank_of_isNameCharacter {character : Char}
    (named : isNameCharacter character = true) : isBlank character = false := by
  have apart : ∀ range ∈ blankRanges, ∀ other ∈ alphanumericRanges,
      range.2 < other.1 ∨ other.2 < range.1 := by decide +kernel
  simp only [isNameCharacter, Bool.or_eq_true, beq_iff_eq] at named
  rcases named with ((alphanumeric | rfl) | rfl) | rfl
  · exact Ranges.covers_eq_false apart alphanumeric
  all_goals decide +kernel

/-- The characters that the format uses between names stand in none. -/
theorem isNameCharacter_mark :
    ∀ mark ∈ ['\n', ' ', '#', '>', ':', '!', '&'], isNameCharacter mark = false := by
  have plain : ['\n', ' ', '#', '>', ':', '!', '&'].all (fun mark => !isNameCharacter mark) =
      true := by decide +kernel
  intro mark isMark
  simpa using List.all_eq_true.1 plain mark isMark

/-- Whether a text can be read as a name. -/
structure IsName (name : String) : Prop where
  nonempty : name ≠ ""
  characters {character : Char} : character ∈ name.toList → isNameCharacter character = true

instance (name : String) : Decidable (IsName name) :=
  decidable_of_iff (name ≠ "" ∧ name.toList.all isNameCharacter = true)
    ⟨fun valid => ⟨valid.1, fun {_} => List.all_eq_true.1 valid.2 _⟩,
      fun isName => ⟨isName.1, List.all_eq_true.2 fun _ => isName.2⟩⟩

namespace IsName

variable {name : String}

theorem toList_ne_nil (isName : IsName name) : name.toList ≠ [] :=
  fun nothing => isName.nonempty (String.toList_eq_nil_iff.1 nothing)

theorem not_mem (isName : IsName name) (mark : Char)
    (isMark : mark ∈ ['\n', ' ', '#', '>', ':', '!', '&']) : mark ∉ name.toList := by
  intro member
  have named := isName.characters member
  rw [isNameCharacter_mark mark isMark] at named
  cases named

theorem trimmed (isName : IsName name) : Trimmed name.toList where
  head first := isBlank_of_isNameCharacter (isName.characters (List.mem_of_head? first))
  last last := isBlank_of_isNameCharacter (isName.characters (List.mem_of_getLast? last))

end IsName

theorem Line.readName_eq_ok_iff {text : List Char} {name : String} :
    readName text = .ok name ↔ IsName name ∧ text = name.toList := by
  unfold readName
  constructor
  · intro read
    split at read
    · rename_i valid
      simp only [Bool.and_eq_true, Bool.not_eq_true', List.isEmpty_eq_false_iff,
        List.all_eq_true] at valid
      cases read
      rw [String.toList_ofList]
      refine ⟨⟨fun nothing => valid.1 ?_, fun member => valid.2 _ ?_⟩, rfl⟩
      · rw [← String.toList_ofList (l := text), nothing]
        rfl
      · rwa [String.toList_ofList] at member
    · cases read
  · rintro ⟨isName, rfl⟩
    have valid : (!name.toList.isEmpty && name.toList.all isNameCharacter) = true := by
      simp only [Bool.and_eq_true, Bool.not_eq_true', List.isEmpty_eq_false_iff, List.all_eq_true]
      exact ⟨isName.toList_ne_nil, fun _ => isName.characters⟩
    rw [if_pos valid, String.ofList_toList]

/-! ## Literals -/

/-- A set of names is the names in it. -/
theorem NameSet.eq_of_mem_iff {first second : NameSet}
    (same : ∀ name, name ∈ first ↔ name ∈ second) : first = second := by
  have names : first.names = second.names :=
    first.ascending.eq_of_mem_iff second.ascending same
  cases first
  cases second
  cases names
  rfl

namespace Guard

variable {guard : Guard}

/-- Whether all propositions of a guard are names. -/
structure Named (guard : Guard) : Prop where
  positive {proposition : String} : proposition ∈ guard.positive → IsName proposition
  negative {proposition : String} : proposition ∈ guard.negative → IsName proposition

/-- The guard of the one literal `true`. -/
def literalTrue : Guard := always.require "true"

/-- The guard that is read where a guard was written. -/
def reread (guard : Guard) : Guard :=
  if guard = literalTrue then always else guard

theorem foldl_require (names : List String) (guard : Guard) :
    names.foldl require guard =
      { guard with positive := names.foldl NameSet.insert guard.positive } := by
  induction names generalizing guard with
  | nil => rfl
  | cons name names inductionHypothesis => exact inductionHypothesis (guard.require name)

theorem foldl_forbid (names : List String) (guard : Guard) :
    names.foldl forbid guard =
      { guard with negative := names.foldl NameSet.insert guard.negative } := by
  induction names generalizing guard with
  | nil => rfl
  | cons name names inductionHypothesis => exact inductionHypothesis (guard.forbid name)

/-- A guard is made of its literals. -/
theorem foldl_literals (guard : Guard) :
    guard.negative.names.foldl forbid (guard.positive.names.foldl require always) = guard := by
  have listed (set : NameSet) : set.names.foldl NameSet.insert ∅ = set := by
    apply NameSet.eq_of_mem_iff
    intro name
    exact NameSet.mem_ofList
  rw [foldl_require, foldl_forbid]
  exact congrArg₂ Guard.mk (listed guard.positive) (listed guard.negative)

end Guard

/-- A literal as it is written. -/
inductive IsLiteral : List Char → Prop where
  | name {proposition : String} (isName : IsName proposition) : IsLiteral proposition.toList
  | negated {proposition : String} (isName : IsName proposition) :
      IsLiteral ('!' :: proposition.toList)

namespace IsLiteral

variable {text : List Char}

theorem ne_nil (literal : IsLiteral text) : text ≠ [] := by
  cases literal with
  | name isName => exact isName.toList_ne_nil
  | negated isName => exact List.cons_ne_nil _ _

theorem trimmed (literal : IsLiteral text) : Trimmed text := by
  cases literal with
  | name isName => exact isName.trimmed
  | negated isName =>
      constructor
      · intro character first
        cases first
        decide
      · intro character last
        apply isName.trimmed.last
        rwa [List.getLast?_cons_of_ne_nil isName.toList_ne_nil] at last

theorem characters (literal : IsLiteral text) {character : Char} (member : character ∈ text) :
    isNameCharacter character = true ∨ character = '!' := by
  cases literal with
  | name isName => exact .inl (isName.characters member)
  | negated isName =>
      rcases List.mem_cons.1 member with rfl | member
      · exact .inr rfl
      · exact .inl (isName.characters member)

theorem not_mem_and (literal : IsLiteral text) : '&' ∉ text := by
  intro member
  rcases literal.characters member with named | same
  · rw [isNameCharacter_mark '&' (by decide)] at named
    cases named
  · cases same

end IsLiteral

/-! ## Reading literals -/

namespace Line

theorem conjuncts_of_plain {part : List Char} (plain : '&' ∉ part) : conjuncts part = [part] := by
  induction part with
  | nil => rfl
  | cons character part inductionHypothesis =>
      have different : character ≠ '&' := fun same => plain (same ▸ List.mem_cons_self)
      have others := inductionHypothesis fun member => plain (List.mem_cons_of_mem _ member)
      rw [conjuncts, others]
      exact fun _ same => absurd same different

theorem conjuncts_append {part : List Char} (plain : '&' ∉ part) (rest : List Char) :
    conjuncts (part ++ '&' :: '&' :: rest) = part :: conjuncts rest := by
  induction part with
  | nil => rfl
  | cons character part inductionHypothesis =>
      have different : character ≠ '&' := fun same => plain (same ▸ List.mem_cons_self)
      have others := inductionHypothesis fun member => plain (List.mem_cons_of_mem _ member)
      rw [List.cons_append, conjuncts, others]
      exact fun _ same => absurd same different

/-- Texts joined by the mark between literals are its parts, up to blanks. -/
theorem map_trim_conjuncts {blanks first : List Char} {rest : List (List Char)}
    (blank : blanks.all isBlank = true) (trimmed : ∀ text ∈ first :: rest, Trimmed text)
    (plain : ∀ text ∈ first :: rest, '&' ∉ text) :
    (conjuncts (blanks ++ " && ".toList.intercalate (first :: rest))).map trim = first :: rest := by
  have plainBlanks : '&' ∉ blanks :=
    fun member => absurd (List.all_eq_true.1 blank '&' member) (by decide)
  have trimmedFirst := trimmed first List.mem_cons_self
  have plainFirst := plain first List.mem_cons_self
  induction rest generalizing blanks first with
  | nil =>
      have trims : trim (blanks ++ first ++ []) = first := trim_append blank (by simp) trimmedFirst
      rw [List.append_nil] at trims
      rw [List.intercalate_singleton, conjuncts_of_plain (by simp [plainBlanks, plainFirst]),
        List.map_singleton, trims]
  | cons second rest inductionHypothesis =>
      have trims : trim (blanks ++ first ++ [' ']) = first :=
        trim_append blank (by decide) trimmedFirst
      have others : (conjuncts ([' '] ++ " && ".toList.intercalate (second :: rest))).map trim =
          second :: rest := by
        apply inductionHypothesis
        · decide
        · exact fun text member => trimmed text (List.mem_cons_of_mem _ member)
        · exact fun text member => plain text (List.mem_cons_of_mem _ member)
        · decide
        · exact trimmed second (by simp)
        · exact plain second (by simp)
      have parts : blanks ++ " && ".toList.intercalate (first :: second :: rest) =
          (blanks ++ first ++ [' ']) ++ '&' :: '&' ::
            ([' '] ++ " && ".toList.intercalate (second :: rest)) := by
        rw [List.intercalate_cons_cons]
        simp
      rw [parts, conjuncts_append (by simp [plainBlanks, plainFirst]), List.map_cons, trims, others]

/-- Blanks around literals do not matter. -/
theorem readLiterals_congr {parts others : List (List Char)}
    (same : parts.map trim = others.map trim) (guard : Guard) :
    readLiterals guard parts = readLiterals guard others := by
  induction parts generalizing others guard with
  | nil =>
      obtain rfl := List.map_eq_nil_iff.1 same.symm
      rfl
  | cons part parts inductionHypothesis =>
      cases others with
      | nil => cases same
      | cons other others =>
          rw [List.map_cons, List.map_cons, List.cons.injEq] at same
          have sameLiteral : readLiteral guard part = readLiteral guard other := by
            unfold readLiteral
            rw [same.1]
          unfold readLiterals
          rw [sameLiteral]
          cases readLiteral guard other with
          | error fault => rfl
          | ok extended => exact inductionHypothesis same.2 extended

theorem readLiteral_name {proposition : String} (isName : IsName proposition) (guard : Guard) :
    readLiteral guard proposition.toList = .ok (guard.require proposition) := by
  unfold readLiteral
  rw [isName.trimmed.trim_eq]
  split
  · rename_i negated isNegated
    exact absurd (isNegated ▸ List.mem_cons_self) (isName.not_mem '!' (by decide))
  · rw [readName_eq_ok_iff.2 ⟨isName, rfl⟩]
    rfl

theorem readLiteral_negated {proposition : String} (isName : IsName proposition) (guard : Guard) :
    readLiteral guard ('!' :: proposition.toList) = .ok (guard.forbid proposition) := by
  unfold readLiteral
  rw [(IsLiteral.negated isName).trimmed.trim_eq]
  simp only
  rw [isName.trimmed.trim_eq, readName_eq_ok_iff.2 ⟨isName, rfl⟩]
  rfl

theorem readLiterals_names {names : List String} (isName : ∀ name ∈ names, IsName name)
    (guard : Guard) (rest : List (List Char)) :
    readLiterals guard (names.map String.toList ++ rest) =
      readLiterals (names.foldl Guard.require guard) rest := by
  induction names generalizing guard with
  | nil => rfl
  | cons name names inductionHypothesis =>
      rw [List.map_cons, List.cons_append, readLiterals,
        readLiteral_name (isName name List.mem_cons_self)]
      exact inductionHypothesis (fun other member => isName other (List.mem_cons_of_mem _ member)) _

theorem readLiterals_negated {names : List String} (isName : ∀ name ∈ names, IsName name)
    (guard : Guard) :
    readLiterals guard (names.map fun name => '!' :: name.toList) =
      .ok (names.foldl Guard.forbid guard) := by
  induction names generalizing guard with
  | nil => rfl
  | cons name names inductionHypothesis =>
      rw [List.map_cons, readLiterals, readLiteral_negated (isName name List.mem_cons_self)]
      exact inductionHypothesis (fun other member => isName other (List.mem_cons_of_mem _ member)) _

end Line

/-! ## Guards -/

namespace Guard

variable {guard : Guard}

theorem toList_literals (guard : Guard) :
    guard.literals.map String.toList = guard.positive.names.map String.toList ++
      guard.negative.names.map fun name => '!' :: name.toList := by
  simp [literals, Function.comp_def]

theorem Named.literal (named : guard.Named) {text : List Char}
    (member : text ∈ guard.literals.map String.toList) : IsLiteral text := by
  rw [toList_literals, List.mem_append, List.mem_map, List.mem_map] at member
  rcases member with ⟨name, listed, rfl⟩ | ⟨name, listed, rfl⟩
  · exact .name (named.positive listed)
  · exact .negated (named.negative listed)

theorem isAlways_iff : guard.isAlways = true ↔ guard = always := by
  constructor
  · intro nothing
    obtain ⟨⟨positive, _⟩, ⟨negative, _⟩⟩ := guard
    simp only [isAlways, NameSet.isEmpty, Bool.and_eq_true, List.isEmpty_iff] at nothing
    obtain ⟨rfl, rfl⟩ := nothing
    rfl
  · rintro rfl
    rfl

/-- A guard with literals is written as these, joined by a mark. -/
theorem Named.written (named : guard.Named) (some_ : guard ≠ always) :
    ∃ first rest, guard.literals.map String.toList = first :: rest ∧
      guard.render.toList = " && ".toList.intercalate (first :: rest) ∧
      ∀ text ∈ first :: rest, IsLiteral text := by
  have notAlways : guard.isAlways = false := by
    rw [Bool.eq_false_iff]
    exact fun nothing => some_ (isAlways_iff.1 nothing)
  have written : guard.render.toList =
      " && ".toList.intercalate (guard.literals.map String.toList) := by
    rw [render, notAlways, if_neg Bool.false_ne_true, String.toList_intercalate]
  cases texts : guard.literals.map String.toList with
  | nil =>
      have nothing : guard.isAlways = true := by
        rw [toList_literals] at texts
        simp only [List.append_eq_nil_iff, List.map_eq_nil_iff] at texts
        simp [isAlways, NameSet.isEmpty, texts.1, texts.2]
      rw [notAlways] at nothing
      cases nothing
  | cons first rest =>
      rw [texts] at written
      exact ⟨first, rest, rfl, written, fun text member => named.literal (texts ▸ member)⟩

/-- Two guards are written as `true`. -/
theorem Named.render_eq_true_iff (named : guard.Named) :
    guard.render = "true" ↔ guard = always ∨ guard = literalTrue := by
  constructor
  · intro isTrue
    by_cases nothing : guard = always
    · exact .inl nothing
    obtain ⟨first, rest, texts, written, _⟩ := named.written nothing
    rw [isTrue] at written
    cases rest with
    | cons second rest =>
        rw [List.intercalate_cons_cons] at written
        have mark : '&' ∈ "true".toList := by
          rw [written]
          simp
        exact absurd mark (by decide)
    | nil =>
        rw [List.intercalate_singleton] at written
        rw [toList_literals, ← written] at texts
        obtain ⟨⟨positive, _⟩, ⟨negative, _⟩⟩ := guard
        rcases List.append_eq_singleton_iff.1 texts with ⟨_, isNegated⟩ | ⟨isPositive, nothing⟩
        · obtain ⟨name, _, bang⟩ := List.map_eq_singleton_iff.1 isNegated
          cases bang
        · obtain ⟨name, rfl, same⟩ := List.map_eq_singleton_iff.1 isPositive
          obtain rfl := String.toList_inj.1 same
          obtain rfl := List.map_eq_nil_iff.1 nothing
          exact .inr rfl
  · rintro (rfl | rfl) <;> rfl

theorem trimmed_intercalate {first : List Char} {rest : List (List Char)}
    (literals : ∀ text ∈ first :: rest, IsLiteral text) :
    Trimmed (" && ".toList.intercalate (first :: rest)) ∧
      " && ".toList.intercalate (first :: rest) ≠ [] := by
  have literal := literals first List.mem_cons_self
  induction rest generalizing first with
  | nil =>
      rw [List.intercalate_singleton]
      exact ⟨literal.trimmed, literal.ne_nil⟩
  | cons second rest inductionHypothesis =>
      have others := inductionHypothesis
        (fun text member => literals text (List.mem_cons_of_mem _ member))
        (literals second (by simp))
      rw [List.intercalate_cons_cons]
      exact ⟨literal.trimmed.join literal.ne_nil others.1 others.2 _, by simp⟩

theorem mem_intercalate {mark : List Char} {texts : List (List Char)} {character : Char}
    (member : character ∈ mark.intercalate texts) :
    character ∈ mark ∨ ∃ text ∈ texts, character ∈ text := by
  induction texts with
  | nil => cases member
  | cons first rest inductionHypothesis =>
      cases rest with
      | nil =>
          rw [List.intercalate_singleton] at member
          exact .inr ⟨first, List.mem_cons_self, member⟩
      | cons second rest =>
          rw [List.intercalate_cons_cons, List.mem_append, List.mem_append] at member
          rcases member with (member | member) | member
          · exact .inr ⟨first, List.mem_cons_self, member⟩
          · exact .inl member
          · rcases inductionHypothesis member with isMark | ⟨text, listed, inside⟩
            · exact .inl isMark
            · exact .inr ⟨text, List.mem_cons_of_mem _ listed, inside⟩

/-- What a written guard consists of. -/
structure IsGuardText (text : List Char) : Prop where
  nonempty : text ≠ []
  trimmed : Trimmed text
  characters {character : Char} : character ∈ text →
    isNameCharacter character = true ∨ character ∈ ['!', '&', ' ']

theorem Named.isGuardText (named : guard.Named) : IsGuardText guard.render.toList := by
  by_cases nothing : guard = always
  · subst nothing
    have isName : IsName "true" := by decide +kernel
    exact ⟨isName.toList_ne_nil, isName.trimmed, fun member => .inl (isName.characters member)⟩
  · obtain ⟨first, rest, _, written, literals⟩ := named.written nothing
    obtain ⟨trimmed, nonempty⟩ := trimmed_intercalate literals
    rw [written]
    refine ⟨nonempty, trimmed, fun member => ?_⟩
    rcases mem_intercalate member with isMark | ⟨text, listed, inside⟩
    · right
      revert isMark
      simp
      tauto
    · rcases (literals text listed).characters inside with isName | rfl
      · exact .inl isName
      · exact .inr List.mem_cons_self

/-- A guard is read as it was written, but for the one literal `true`. -/
theorem Named.readGuard_render (named : guard.Named) :
    Line.readGuard guard.render.toList = .ok guard.reread := by
  unfold Line.readGuard
  by_cases isTrue : guard.render = "true"
  · rw [isTrue, if_pos rfl]
    rcases named.render_eq_true_iff.1 isTrue with rfl | rfl <;> rfl
  · have plain : guard.render.toList ≠ "true".toList := fun same =>
      isTrue (String.toList_inj.1 same)
    have neither := mt named.render_eq_true_iff.2 isTrue
    obtain ⟨nothing, notTrue⟩ := not_or.1 neither
    obtain ⟨first, rest, texts, written, literals⟩ := named.written nothing
    have parts : (Line.conjuncts guard.render.toList).map trim =
        (guard.literals.map String.toList).map trim := by
      have cut : (Line.conjuncts ([] ++ " && ".toList.intercalate (first :: rest))).map trim =
          first :: rest := by
        apply Line.map_trim_conjuncts
        · simp
        · exact fun text member => (literals text member).trimmed
        · exact fun text member => (literals text member).not_mem_and
      rw [List.nil_append, ← written] at cut
      rw [cut, texts, List.map_congr_left fun text member =>
        (literals text member).trimmed.trim_eq, List.map_id']
    rw [if_neg plain, Line.readLiterals_congr parts, toList_literals,
      Line.readLiterals_names fun name member => named.positive member,
      Line.readLiterals_negated fun name member => named.negative member, foldl_literals, reread,
      if_neg notTrue]

end Guard

/-! ## Lines -/

namespace Line

theorem read_eq {text : List Char} (plain : '#' ∉ text) (trimmed : Trimmed text) :
    read text = readTrimmed text := by
  rw [read, before_eq_self plain, trimmed.trim_eq]

/-- A written line starts with a word and a space, and ends in another text. -/
theorem read_word {word : String} (isName : IsName word) {rest : List Char} (plain : '#' ∉ rest)
    (trimmed : Trimmed rest) (some_ : rest ≠ []) :
    read (word.toList ++ ' ' :: rest) = readTrimmed (word.toList ++ ' ' :: rest) := by
  have joined := isName.trimmed.join isName.toList_ne_nil trimmed some_ [' ']
  rw [List.append_assoc, List.singleton_append] at joined
  apply read_eq _ joined
  simp [isName.not_mem '#' (by decide), plain]

/-- Only the first word decides whether a line starts like an `init` line. -/
theorem afterStart?_word {word keyword : String} (isWord : IsName word) (isKeyword : IsName keyword)
    (rest : List Char) :
    afterStart? (keyword.toList ++ [' ']) (word.toList ++ ' ' :: rest) =
      if word = keyword then some rest else none := by
  have cut (name : String) (isName : IsName name) (after : List Char) :
      cut? [' '] (name.toList ++ ' ' :: after) = some (name.toList, after) :=
    cut?_single (isName.not_mem ' ' (by decide)) after
  split
  · rename_i same
    rw [afterStart?_eq_some_iff, same, List.append_assoc, List.singleton_append]
  · rename_i different
    rw [Option.eq_none_iff_forall_ne_some]
    intro after found
    rw [afterStart?_eq_some_iff, List.append_assoc, List.singleton_append] at found
    have sameCut := cut word isWord rest
    rw [found, cut keyword isKeyword after, Option.some.injEq, Prod.mk.injEq] at sameCut
    exact different (String.toList_inj.1 sameCut.1).symm

theorem isName_init : IsName "init" := by decide +kernel

theorem isName_accept : IsName "accept" := by decide +kernel

theorem readTrimmed_init (rest : List Char) :
    readTrimmed ("init".toList ++ ' ' :: rest) = (readName (trim rest)).map .initial := by
  rfl

theorem readTrimmed_accept (rest : List Char) :
    readTrimmed ("accept".toList ++ ' ' :: rest) = (readName (trim rest)).map .accepting := by
  rfl

theorem readTrimmed_arrow {word : String} (isName : IsName word)
    (noKeyword : word ≠ "init" ∧ word ≠ "accept") {rest source target : List Char}
    (arrow : cut? "->".toList (word.toList ++ ' ' :: rest) = some (source, target)) :
    readTrimmed (word.toList ++ ' ' :: rest) = readEdge source target := by
  have notInit := afterStart?_word isName isName_init rest
  have notAccept := afterStart?_word isName isName_accept rest
  rw [if_neg noKeyword.1] at notInit
  rw [if_neg noKeyword.2] at notAccept
  have notEmpty : (word.toList ++ ' ' :: rest).isEmpty = false := by simp
  change afterStart? "init ".toList _ = _ at notInit
  change afterStart? "accept ".toList _ = _ at notAccept
  rw [readTrimmed, notEmpty, if_neg Bool.false_ne_true, notInit, notAccept, arrow]

theorem read_initial {name : String} (isName : IsName name) :
    read ("init".toList ++ ' ' :: name.toList) = .ok (.initial name) := by
  rw [read_word isName_init (isName.not_mem '#' (by decide)) isName.trimmed isName.toList_ne_nil,
    readTrimmed_init, isName.trimmed.trim_eq,
    readName_eq_ok_iff.2 ⟨isName, rfl⟩]
  rfl

theorem read_accepting {name : String} (isName : IsName name) :
    read ("accept".toList ++ ' ' :: name.toList) = .ok (.accepting name) := by
  rw [read_word isName_accept (isName.not_mem '#' (by decide)) isName.trimmed isName.toList_ne_nil,
    readTrimmed_accept, isName.trimmed.trim_eq,
    readName_eq_ok_iff.2 ⟨isName, rfl⟩]
  rfl

/-- The part of a transition line after its source. -/
def arrowText (guard : Guard) (target : String) : List Char :=
  '-' :: '>' :: ([' '] ++ target.toList ++ [' ']) ++ ':' :: ' ' :: guard.render.toList

variable {guard : Guard} {target : String}

theorem trimmed_arrowText (named : guard.Named) : Trimmed (arrowText guard target) := by
  have text := named.isGuardText
  have arrow : Trimmed "->".toList := by
    constructor
    · intro character first
      cases first
      decide
    · intro character last
      cases last
      decide
  have joined := arrow.join (by decide) text.trimmed text.nonempty
    (([' '] ++ target.toList ++ [' ']) ++ [':', ' '])
  simpa [arrowText] using joined

theorem not_mem_arrowText (named : guard.Named) (isTarget : IsName target) {mark : Char}
    (isMark : mark ∈ ['\n', '#']) : mark ∉ arrowText guard target := by
  have elsewhere : mark ∈ ['\n', ' ', '#', '>', ':', '!', '&'] ∧ mark ∉ ['!', '&', ' '] ∧
      mark ∉ ['-', '>', ' ', ':'] := by
    rw [List.mem_cons, List.mem_singleton] at isMark
    rcases isMark with rfl | rfl <;> decide
  obtain ⟨noName, noLiteral, noFrame⟩ := elsewhere
  have noTarget := isTarget.not_mem mark noName
  have noGuard : mark ∉ guard.render.toList := by
    intro member
    rcases named.isGuardText.characters member with isName | listed
    · rw [isNameCharacter_mark mark noName] at isName
      cases isName
    · exact noLiteral listed
  simp only [List.mem_cons, List.not_mem_nil, or_false, not_or] at noFrame
  simp [arrowText, noTarget, noGuard, noFrame]

theorem readName_arrowText_ne_ok (named : guard.Named) (name : String) :
    readName (trim (arrowText guard target)) ≠ .ok name := by
  intro read
  rw [(trimmed_arrowText named).trim_eq, readName_eq_ok_iff] at read
  obtain ⟨isName, text⟩ := read
  apply isName.not_mem '>' (by decide)
  simp [← text, arrowText]

/-- A transition line is read as a transition, unless its source starts it like
another kind of line. -/
theorem read_edge {source : String} (isSource : IsName source) (named : guard.Named)
    (isTarget : IsName target) (noKeyword : source ≠ "init" ∧ source ≠ "accept") :
    read (source.toList ++ ' ' :: arrowText guard target) =
      .ok (.edge ⟨source, guard.reread, target⟩) := by
  have noArrow : '>' ∉ source.toList ++ [' '] := by
    simp [isSource.not_mem '>' (by decide)]
  have noColon : ':' ∉ [' '] ++ target.toList ++ [' '] := by
    simp [isTarget.not_mem ':' (by decide)]
  have atArrow : cut? ['-', '>'] (source.toList ++ ' ' :: arrowText guard target) =
      some (source.toList ++ [' '], ([' '] ++ target.toList ++ [' ']) ++ ':' :: ' ' ::
        guard.render.toList) := by
    rw [← cut?_pair (show '-' ≠ '>' by decide) noArrow]
    simp only [arrowText, List.append_assoc, List.cons_append, List.nil_append]
  have trimSource : trim (source.toList ++ [' ']) = source.toList := by
    have trims : trim ([] ++ source.toList ++ [' ']) = source.toList :=
      trim_append (by simp) (by decide) isSource.trimmed
    simpa using trims
  have trimTarget : trim ([' '] ++ target.toList ++ [' ']) = target.toList :=
    trim_append (by decide) (by decide) isTarget.trimmed
  have trimGuard : trim (' ' :: guard.render.toList) = guard.render.toList := by
    have trims : trim ([' '] ++ guard.render.toList ++ []) = guard.render.toList :=
      trim_append (by decide) (by simp) named.isGuardText.trimmed
    simpa using trims
  rw [read_word isSource (not_mem_arrowText named isTarget (by decide)) (trimmed_arrowText named)
    (List.cons_ne_nil _ _), readTrimmed_arrow isSource noKeyword atArrow, readEdge,
    cut?_single noColon]
  simp only
  rw [trimSource, trimTarget, trimGuard, readName_eq_ok_iff.2 ⟨isSource, rfl⟩,
    readName_eq_ok_iff.2 ⟨isTarget, rfl⟩, named.readGuard_render]

theorem read_keyword_edge_ne_ok {source : String} (named : guard.Named)
    (isTarget : IsName target) (keyword : source = "init" ∨ source = "accept") (line : Line) :
    read (source.toList ++ ' ' :: arrowText guard target) ≠ .ok line := by
  have noName (kind : String → Line) :
      (readName (trim (arrowText guard target))).map kind ≠ .ok line := by
    cases outcome : readName (trim (arrowText guard target)) with
    | ok name => exact absurd outcome (readName_arrowText_ne_ok named name)
    | error fault => exact nofun
  have reads {word : String} (isName : IsName word) :=
    read_word isName (not_mem_arrowText named isTarget (by decide)) (trimmed_arrowText named)
      (List.cons_ne_nil _ _)
  rcases keyword with rfl | rfl
  · rw [reads isName_init, readTrimmed_init]
    exact noName .initial
  · rw [reads isName_accept, readTrimmed_accept]
    exact noName .accepting

end Line

/-! ## Names in what was read -/

namespace Guard

variable {guard : Guard}

theorem named_always : always.Named where
  positive member := absurd member NameSet.not_mem_empty
  negative member := absurd member NameSet.not_mem_empty

theorem Named.require (named : guard.Named) {proposition : String} (isName : IsName proposition) :
    (guard.require proposition).Named where
  positive member := by
    rcases NameSet.mem_insert.1 member with rfl | listed
    · exact isName
    · exact named.positive listed
  negative := named.negative

theorem Named.forbid (named : guard.Named) {proposition : String} (isName : IsName proposition) :
    (guard.forbid proposition).Named where
  positive := named.positive
  negative member := by
    rcases NameSet.mem_insert.1 member with rfl | listed
    · exact isName
    · exact named.negative listed

end Guard

namespace Line

/-- Whether all that a line names are names. -/
structure Named (line : Line) : Prop where
  mentions {name : String} : name ∈ line.mentions → IsName name
  guard {written : DraftEdge} : line.edge? = some written → written.guard.Named

theorem readName_map_eq_ok {kind : Type} {text : List Char} {make : String → kind} {made : kind}
    (read : (readName text).map make = .ok made) : ∃ name, IsName name ∧ make name = made := by
  cases outcome : readName text with
  | error fault =>
      rw [outcome] at read
      cases read
  | ok name =>
      rw [outcome] at read
      exact ⟨name, (readName_eq_ok_iff.1 outcome).1, Except.ok.inj read⟩

theorem named_of_readLiteral {guard extended : Guard} (named : guard.Named) {text : List Char}
    (read : readLiteral guard text = .ok extended) : extended.Named := by
  unfold readLiteral at read
  split at read
  · obtain ⟨name, isName, rfl⟩ := readName_map_eq_ok read
    exact named.forbid isName
  · obtain ⟨name, isName, rfl⟩ := readName_map_eq_ok read
    exact named.require isName

theorem named_of_readLiterals {texts : List (List Char)} {guard extended : Guard}
    (named : guard.Named) (read : readLiterals guard texts = .ok extended) : extended.Named := by
  induction texts generalizing guard with
  | nil =>
      cases read
      exact named
  | cons text texts inductionHypothesis =>
      unfold readLiterals at read
      split at read
      · cases read
      · rename_i first readFirst
        exact inductionHypothesis (named_of_readLiteral named readFirst) read

theorem named_of_readGuard {text : List Char} {guard : Guard} (read : readGuard text = .ok guard) :
    guard.Named := by
  unfold readGuard at read
  split at read
  · cases read
    exact Guard.named_always
  · exact named_of_readLiterals Guard.named_always read

theorem named_of_readEdge {source rest : List Char} {line : Line}
    (read : readEdge source rest = .ok line) : line.Named := by
  unfold readEdge at read
  split at read
  · cases read
  split at read
  · cases read
  rename_i sourceName readSource
  split at read
  · cases read
  rename_i targetName readTarget
  split at read
  · cases read
  rename_i guard readGuard
  cases read
  constructor
  · intro name member
    simp only [mentions, List.mem_cons, List.not_mem_nil, or_false] at member
    rcases member with rfl | rfl
    · exact (readName_eq_ok_iff.1 readSource).1
    · exact (readName_eq_ok_iff.1 readTarget).1
  · intro written same
    cases same
    exact named_of_readGuard readGuard

theorem named_of_read {text : List Char} {line : Line} (read : read text = .ok line) :
    line.Named := by
  unfold Line.read readTrimmed at read
  split at read
  · cases read
    exact ⟨nofun, nofun⟩
  split at read
  · obtain ⟨name, isName, rfl⟩ := readName_map_eq_ok read
    exact ⟨fun member => List.mem_singleton.1 member ▸ isName, nofun⟩
  split at read
  · obtain ⟨name, isName, rfl⟩ := readName_map_eq_ok read
    exact ⟨fun member => List.mem_singleton.1 member ▸ isName, nofun⟩
  split at read
  · exact named_of_readEdge read
  · cases read

end Line

end OnTheFly
