import Mathlib.Data.List.Forall2
import OnTheFly.Proofs.Automaton.Written
import OnTheFly.Proofs.Text.Cuts

/-!
Contract: the grammar of the text format, and that lines are read by it.

Owns: what spells a name, a literal, a guard and a line; what is wrong with a
line that spells nothing; and that reading a line finds the one or the other.
Does not own: what several lines say together.

Blanks may stand around every part of a line. A line that starts with a keyword
and a space is never a transition line, and the guard of the one literal `true`
cannot be spelt.
-/

set_option autoImplicit false

namespace OnTheFly

open Text

/-! ## What spells a line -/

/-- A proposition with its sign. -/
inductive Literal where
  | positive (proposition : String)
  | negative (proposition : String)
deriving DecidableEq, Repr

def SpellsName (text : List Char) (name : String) : Prop :=
  IsName name ∧ Padded name.toList text

inductive SpellsLiteral : List Char → Literal → Prop where
  | positive {text : List Char} {proposition : String} (name : SpellsName text proposition) :
      SpellsLiteral text (.positive proposition)
  | negative {blanks text : List Char} {proposition : String} (blank : blanks.all isBlank = true)
      (name : SpellsName text proposition) :
      SpellsLiteral (blanks ++ '!' :: text) (.negative proposition)

/-- Whether a guard is made of these literals, in any order and number. -/
structure Guard.Consists (guard : Guard) (literals : List Literal) : Prop where
  positive {proposition : String} :
    proposition ∈ guard.positive ↔ .positive proposition ∈ literals
  negative {proposition : String} :
    proposition ∈ guard.negative ↔ .negative proposition ∈ literals

inductive SpellsGuard : List Char → Guard → Prop where
  | truth {text : List Char} (padded : Padded "true".toList text) : SpellsGuard text .always
  | literals {parts : List (List Char)} {literals : List Literal} {guard : Guard}
      (some_ : parts ≠ []) (spelt : List.Forall₂ SpellsLiteral parts literals)
      (notTrue : literals ≠ [.positive "true"]) (consists : guard.Consists literals) :
      SpellsGuard ("&&".toList.intercalate parts) guard

/-- Whether a line is no `init` line and no `accept` line, whatever follows. -/
structure NoKeyword (content : List Char) : Prop where
  init : ¬ "init ".toList <+: content
  accept : ¬ "accept ".toList <+: content

/-- What a line says, without its comment and the blanks around it. -/
inductive SpellsContent : List Char → Line → Prop where
  | empty : SpellsContent [] .empty
  | initial {text : List Char} {name : String} (spelt : SpellsName text name) :
      SpellsContent ("init ".toList ++ text) (.initial name)
  | accepting {text : List Char} {name : String} (spelt : SpellsName text name) :
      SpellsContent ("accept ".toList ++ text) (.accepting name)
  | edge {left middle right : List Char} {source target : String} {guard : Guard}
      (noKeyword : NoKeyword (left ++ "->".toList ++ (middle ++ ":".toList ++ right)))
      (sourceSpelt : SpellsName left source) (targetSpelt : SpellsName middle target)
      (guardSpelt : SpellsGuard right guard) :
      SpellsContent (left ++ "->".toList ++ (middle ++ ":".toList ++ right))
        (.edge ⟨source, guard, target⟩)

/-- Whether `content` is what counts of a line: the part before the first `#`,
without the blanks around it. -/
def IsContent (text content : List Char) : Prop :=
  Trimmed content ∧ ∃ kept, EndsAt '#' kept text ∧ Padded content kept

def SpellsLine (text : List Char) (line : Line) : Prop :=
  ∃ content, IsContent text content ∧ SpellsContent content line

theorem isContent_iff {text content : List Char} :
    IsContent text content ↔ trim (before '#' text) = content := by
  unfold IsContent
  rw [trim_eq_iff]
  simp only [endsAt_iff, exists_eq_left']

/-! ## What is wrong with a line -/

namespace Line

/-- The text that is taken for a name. -/
def nameAt (place : List Char) : String :=
  String.ofList (trim place)

/-- Where the proposition of a literal stands. -/
def literalPlace (part : List Char) : List Char :=
  match trim part with
  | '!' :: proposition => proposition
  | proposition => proposition

/-- The places of a line at which a name is expected, in order. -/
inductive NamePlaces : List Char → List (List Char) → Prop where
  | initial (place : List Char) : NamePlaces ("init ".toList ++ place) [place]
  | accepting (place : List Char) : NamePlaces ("accept ".toList ++ place) [place]
  | edge {content left rest middle right : List Char} (noKeyword : NoKeyword content)
      (arrow : FirstCut "->".toList left rest content)
      (colon : FirstCut ":".toList middle right rest) :
      NamePlaces content (left :: middle :: (conjuncts right).map literalPlace)

/-- The first text in the place of a name that is none. -/
def firstInvalid? (places : List (List Char)) : Option String :=
  (places.map nameAt).find? fun word => ¬ IsName word

/-- What is wrong with a line, without its comment and the blanks around it. -/
inductive Flawed (content : List Char) : LineFault → Prop where
  | unrecognised (some_ : content ≠ []) (noKeyword : NoKeyword content)
      (noArrow : ¬ "->".toList <:+: content) :
      Flawed content (.unrecognised (String.ofList content))
  | missingColon {left rest : List Char} (noKeyword : NoKeyword content)
      (arrow : FirstCut "->".toList left rest content) (noColon : ':' ∉ rest) :
      Flawed content .missingColon
  | invalidName {places : List (List Char)} {word : String} (expected : NamePlaces content places)
      (first : firstInvalid? places = some word) : Flawed content (.invalidName word)

/-! ## Names -/

theorem readName_trim_eq_ok_iff {text : List Char} {name : String} :
    readName (trim text) = .ok name ↔ SpellsName text name := by
  rw [readName_eq_ok_iff, trim_eq_iff]
  exact ⟨fun read => ⟨read.1, read.2.2⟩, fun spelt => ⟨spelt.1, spelt.1.trimmed, spelt.2⟩⟩

theorem readName_trim (place : List Char) :
    readName (trim place) =
      if IsName (nameAt place) then .ok (nameAt place)
      else .error (.invalidName (nameAt place)) := by
  have ok : readName (trim place) = .ok (nameAt place) ↔ IsName (nameAt place) := by
    rw [readName_eq_ok_iff, nameAt, String.toList_ofList, and_iff_left rfl]
  split
  · rename_i isName
    exact ok.2 isName
  · rename_i invalid
    rw [← ok, readName] at invalid
    rw [readName]
    split
    · rename_i valid
      exact absurd (if_pos valid) invalid
    · rfl

theorem readName_trim_eq_error_iff {place : List Char} {fault : LineFault} :
    readName (trim place) = .error fault ↔
      ¬ IsName (nameAt place) ∧ fault = .invalidName (nameAt place) := by
  rw [readName_trim]
  split
  · rename_i isName
    simp [isName]
  · rename_i invalid
    simp [invalid, eq_comm]

theorem firstInvalid?_cons (place : List Char) (places : List (List Char)) :
    firstInvalid? (place :: places) =
      if IsName (nameAt place) then firstInvalid? places else some (nameAt place) := by
  rw [firstInvalid?, List.map_cons, List.find?_cons]
  split
  · rename_i invalid
    rw [if_neg (by simpa using invalid)]
  · rename_i valid
    rw [if_pos (by simpa using valid)]
    rfl

/-! ## Literals -/

theorem literalPlace_of_not {part : List Char}
    (positive : ∀ proposition, trim part ≠ '!' :: proposition) : literalPlace part = trim part := by
  unfold literalPlace
  split
  · rename_i proposition negated
    exact absurd negated (positive proposition)
  · rfl

end Line

namespace Guard

/-- Adds a literal. -/
def add (guard : Guard) : Literal → Guard
  | .positive proposition => guard.require proposition
  | .negative proposition => guard.forbid proposition

theorem mem_foldl_add {literals : List Literal} {guard : Guard} {proposition : String} :
    (proposition ∈ (literals.foldl add guard).positive ↔
        proposition ∈ guard.positive ∨ .positive proposition ∈ literals) ∧
      (proposition ∈ (literals.foldl add guard).negative ↔
        proposition ∈ guard.negative ∨ .negative proposition ∈ literals) := by
  induction literals generalizing guard with
  | nil => simp
  | cons literal literals inductionHypothesis =>
      rw [List.foldl_cons, inductionHypothesis.1, inductionHypothesis.2]
      cases literal with
      | positive other =>
          have required : proposition ∈ (guard.add (.positive other)).positive ↔
              proposition = other ∨ proposition ∈ guard.positive := NameSet.mem_insert
          have kept : (guard.add (.positive other)).negative = guard.negative := rfl
          rw [required, kept]
          simp only [List.mem_cons, Literal.positive.injEq, reduceCtorEq, false_or]
          tauto
      | negative other =>
          have forbidden : proposition ∈ (guard.add (.negative other)).negative ↔
              proposition = other ∨ proposition ∈ guard.negative := NameSet.mem_insert
          have kept : (guard.add (.negative other)).positive = guard.positive := rfl
          rw [forbidden, kept]
          simp only [List.mem_cons, Literal.negative.injEq, reduceCtorEq, false_or]
          tauto

/-- A guard is determined by its literals. -/
theorem consists_iff {guard : Guard} {literals : List Literal} :
    guard.Consists literals ↔ literals.foldl add always = guard := by
  have made : (literals.foldl add always).Consists literals := by
    have members {proposition : String} := @mem_foldl_add literals always proposition
    have nothing {proposition : String} : ¬ proposition ∈ always.positive ∧
        ¬ proposition ∈ always.negative := ⟨NameSet.not_mem_empty, NameSet.not_mem_empty⟩
    constructor
    · intro proposition
      rw [members.1, or_iff_right nothing.1]
    · intro proposition
      rw [members.2, or_iff_right nothing.2]
  constructor
  · intro consists
    have positive : (literals.foldl add always).positive = guard.positive :=
      NameSet.eq_of_mem_iff fun proposition => made.positive.trans consists.positive.symm
    have negative : (literals.foldl add always).negative = guard.negative :=
      NameSet.eq_of_mem_iff fun proposition => made.negative.trans consists.negative.symm
    exact congrArg₂ Guard.mk positive negative
  · rintro rfl
    exact made

end Guard

theorem SpellsName.append_blanks {text blanks : List Char} {name : String}
    (spelt : SpellsName text name) (blank : blanks.all isBlank = true) :
    SpellsName (text ++ blanks) name := by
  obtain ⟨isName, lead, trail, blankLead, blankTrail, rfl⟩ := spelt
  refine ⟨isName, lead, trail ++ blanks, blankLead, ?_, by simp⟩
  rw [List.all_append, blankTrail, blank]
  rfl

theorem SpellsName.not_mem {text : List Char} {name : String} (spelt : SpellsName text name)
    (mark : Char) (isMark : mark ∈ ['#', '>', ':', '!', '&']) : mark ∉ text := by
  have visible : ['#', '>', ':', '!', '&'].all (fun mark => !isBlank mark) = true := by decide
  apply spelt.2.not_mem (by simpa using List.all_eq_true.1 visible mark isMark)
  apply spelt.1.not_mem
  exact List.mem_cons_of_mem _ (List.mem_cons_of_mem _ isMark)

/-- An arrow after a name is the first one. -/
theorem SpellsName.firstCut {left : List Char} {name : String} (spelt : SpellsName left name)
    (rest : List Char) : FirstCut "->".toList left rest (left ++ "->".toList ++ rest) := by
  apply cut?_eq_some_iff.1
  rw [List.append_assoc]
  exact cut?_pair (by decide) (spelt.not_mem '>' (by decide)) rest

theorem SpellsLiteral.not_mem_and {text : List Char} {literal : Literal}
    (spelt : SpellsLiteral text literal) : '&' ∉ text := by
  cases spelt with
  | positive name => exact name.not_mem '&' (by decide)
  | negative blank name =>
      have notBlank := not_mem_of_blank blank (show isBlank '&' = false by decide)
      simp [name.not_mem '&' (by decide), notBlank]

theorem SpellsName.unique {text : List Char} {first second : String}
    (spelt : SpellsName text first) (speltToo : SpellsName text second) : first = second := by
  have trims := trim_eq_iff.2 ⟨spelt.1.trimmed, spelt.2⟩
  rw [trim_eq_iff.2 ⟨speltToo.1.trimmed, speltToo.2⟩] at trims
  exact (String.toList_inj.1 trims).symm

theorem SpellsLiteral.eq_of_name {text : List Char} {literal : Literal} {name : String}
    (spelt : SpellsLiteral text literal) (isName : SpellsName text name) :
    literal = .positive name := by
  cases spelt with
  | positive spelt => exact congrArg _ (spelt.unique isName)
  | negative blank spelt => exact absurd (by simp) (isName.not_mem '!' (by decide))

namespace Line

theorem readLiteral_eq_ok_iff {guard extended : Guard} {text : List Char} :
    readLiteral guard text = .ok extended ↔
      ∃ literal, SpellsLiteral text literal ∧ guard.add literal = extended := by
  constructor
  · intro read
    unfold readLiteral at read
    split at read
    · rename_i proposition negated
      obtain ⟨_, lead, trail, blankLead, blankTrail, rfl⟩ := trim_eq_iff.1 negated
      cases named : readName (trim proposition) with
      | error fault =>
          rw [named] at read
          cases read
      | ok name =>
          rw [named] at read
          cases read
          have spelt := (readName_trim_eq_ok_iff.1 named).append_blanks blankTrail
          refine ⟨.negative name, ?_, rfl⟩
          rw [List.append_assoc, List.cons_append]
          exact .negative blankLead spelt
    · cases named : readName (trim text) with
      | error fault =>
          rw [named] at read
          cases read
      | ok name =>
          rw [named] at read
          cases read
          exact ⟨.positive name, .positive (readName_trim_eq_ok_iff.1 named), rfl⟩
  · rintro ⟨literal, spelt, rfl⟩
    cases spelt with
    | positive name =>
        rename_i proposition
        have trims := trim_eq_iff.2 ⟨name.1.trimmed, name.2⟩
        have same : readLiteral guard text = readLiteral guard proposition.toList := by
          unfold readLiteral
          rw [trims, name.1.trimmed.trim_eq]
        rw [same]
        exact readLiteral_name name.1 guard
    | negative blank name =>
        rename_i blanks text proposition
        obtain ⟨isName, lead, trail, blankLead, blankTrail, rfl⟩ := name
        have sign : Trimmed ['!'] := by
          constructor
          · intro character first
            cases first
            decide
          · intro character last
            cases last
            decide
        have trims : trim (blanks ++ '!' :: (lead ++ proposition.toList ++ trail)) =
            '!' :: (lead ++ proposition.toList) := by
          refine trim_eq_iff.2 ⟨?_, blanks, trail, blank, blankTrail, by simp⟩
          simpa using sign.join (by simp) isName.trimmed isName.toList_ne_nil lead
        have named : readName (trim (lead ++ proposition.toList)) = .ok proposition :=
          readName_trim_eq_ok_iff.2 ⟨isName, lead, [], blankLead, rfl, by simp⟩
        unfold readLiteral
        rw [trims]
        simp only
        rw [named]
        rfl

theorem readLiteral_eq_error_iff {guard : Guard} {text : List Char} {fault : LineFault} :
    readLiteral guard text = .error fault ↔
      readName (trim (literalPlace text)) = .error fault := by
  have mapped {made : String → Guard} {outcome : Except LineFault String} :
      outcome.map made = .error fault ↔ outcome = .error fault := by
    cases outcome <;> simp [Except.map]
  by_cases negated : ∃ proposition, trim text = '!' :: proposition
  · obtain ⟨proposition, same⟩ := negated
    unfold readLiteral literalPlace
    rw [same]
    exact mapped
  · have positive : ∀ proposition, trim text ≠ '!' :: proposition :=
      fun proposition same => negated ⟨proposition, same⟩
    rw [literalPlace_of_not positive, trim_trim]
    unfold readLiteral
    split
    · rename_i proposition same
      exact absurd same (positive proposition)
    · exact mapped

theorem readLiterals_eq_ok_iff {parts : List (List Char)} {guard extended : Guard} :
    readLiterals guard parts = .ok extended ↔
      ∃ literals, List.Forall₂ SpellsLiteral parts literals ∧
        literals.foldl Guard.add guard = extended := by
  induction parts generalizing guard with
  | nil => simp [readLiterals]
  | cons part parts inductionHypothesis =>
      unfold readLiterals
      constructor
      · intro read
        split at read
        · cases read
        · rename_i first readFirst
          obtain ⟨literal, spelt, rfl⟩ := readLiteral_eq_ok_iff.1 readFirst
          obtain ⟨literals, others, rfl⟩ := inductionHypothesis.1 read
          exact ⟨literal :: literals, .cons spelt others, rfl⟩
      · rintro ⟨_, spelt, rfl⟩
        cases spelt with
        | cons first others =>
            rw [readLiteral_eq_ok_iff.2 ⟨_, first, rfl⟩]
            exact inductionHypothesis.2 ⟨_, others, rfl⟩

theorem readLiterals_eq_error_iff {parts : List (List Char)} {guard : Guard} {fault : LineFault} :
    readLiterals guard parts = .error fault ↔
      ∃ word, firstInvalid? (parts.map literalPlace) = some word ∧
        fault = .invalidName word := by
  induction parts generalizing guard with
  | nil => simp [readLiterals, firstInvalid?]
  | cons part parts inductionHypothesis =>
      unfold readLiterals
      rw [List.map_cons, firstInvalid?_cons]
      split
      · rename_i other failed
        obtain ⟨invalid, rfl⟩ :=
          readName_trim_eq_error_iff.1 (readLiteral_eq_error_iff.1 failed)
        simp [invalid, eq_comm]
      · rename_i extended read
        have isName : IsName (nameAt (literalPlace part)) := by
          by_contra invalid
          have failed := (@readLiteral_eq_error_iff guard _ _).2
            (readName_trim_eq_error_iff.2 ⟨invalid, rfl⟩)
          rw [read] at failed
          cases failed
        rw [if_pos isName]
        exact inductionHypothesis

/-! ## Guards -/

theorem conjuncts_ne_nil (text : List Char) : conjuncts text ≠ [] := by
  unfold conjuncts
  split
  · exact List.cons_ne_nil _ _
  · split <;> exact List.cons_ne_nil _ _
  · exact List.cons_ne_nil _ _

theorem conjuncts_cons {character : Char} {rest part : List Char} {others : List (List Char)}
    (noMark : ∀ others, character = '&' → rest = '&' :: others → False)
    (parts : conjuncts rest = part :: others) :
    conjuncts (character :: rest) = (character :: part) :: others := by
  rw [conjuncts, parts]
  exact noMark

theorem intercalate_conjuncts (text : List Char) :
    "&&".toList.intercalate (conjuncts text) = text := by
  induction text using conjuncts.induct with
  | case1 rest inductionHypothesis =>
      rw [conjuncts, List.intercalate_cons_of_ne_nil (conjuncts_ne_nil rest), inductionHypothesis]
      rfl
  | case2 character rest _ nothing => exact absurd nothing (conjuncts_ne_nil rest)
  | case3 character rest noMark part others parts inductionHypothesis =>
      rw [conjuncts_cons noMark parts]
      rw [parts] at inductionHypothesis
      cases others with
      | nil =>
          rw [List.intercalate_singleton] at inductionHypothesis ⊢
          rw [inductionHypothesis]
      | cons second others =>
          rw [List.intercalate_cons_cons] at inductionHypothesis ⊢
          rw [List.cons_append, List.cons_append, inductionHypothesis]
  | case4 => rfl

theorem conjuncts_intercalate {parts : List (List Char)} (some_ : parts ≠ [])
    (plain : ∀ part ∈ parts, '&' ∉ part) : conjuncts ("&&".toList.intercalate parts) = parts := by
  induction parts with
  | nil => exact absurd rfl some_
  | cons part parts inductionHypothesis =>
      have plainPart := plain part List.mem_cons_self
      cases parts with
      | nil => rw [List.intercalate_singleton, conjuncts_of_plain plainPart]
      | cons second others =>
          have rest := inductionHypothesis (List.cons_ne_nil _ _) fun other member =>
            plain other (List.mem_cons_of_mem _ member)
          rw [List.intercalate_cons_cons, List.append_assoc]
          exact (conjuncts_append plainPart _).trans (congrArg (part :: ·) rest)

/-- Blanks before a text go to its first part. -/
theorem map_trim_conjuncts_blank {blanks : List Char} (blank : blanks.all isBlank = true)
    (text : List Char) :
    (conjuncts (blanks ++ text)).map trim = (conjuncts text).map trim := by
  induction blanks with
  | nil => rfl
  | cons character blanks inductionHypothesis =>
      rw [List.all_cons, Bool.and_eq_true] at blank
      have different : character ≠ '&' := by
        rintro rfl
        exact absurd blank.1 (by decide)
      obtain ⟨part, others, parts⟩ :=
        List.exists_cons_of_ne_nil (conjuncts_ne_nil (blanks ++ text))
      have whole := conjuncts_cons (fun _ isMark => absurd isMark different) parts
      have blankFirst : [character].all isBlank = true := by simp [blank.1]
      have first : trim (character :: part) = trim part := trim_blank_append blankFirst
      rw [List.cons_append, whole, ← inductionHypothesis blank.2, parts, List.map_cons,
        List.map_cons, first]

/-- Blanks after a text go to its last part. -/
theorem conjuncts_append_blank {blanks : List Char} (blank : blanks.all isBlank = true)
    (text : List Char) :
    ∃ others last, conjuncts text = others ++ [last] ∧
      conjuncts (text ++ blanks) = others ++ [last ++ blanks] := by
  have plain : '&' ∉ blanks := not_mem_of_blank blank (by decide)
  induction text using conjuncts.induct with
  | case1 rest inductionHypothesis =>
      obtain ⟨others, last, parts, whole⟩ := inductionHypothesis
      refine ⟨[] :: others, last, ?_, ?_⟩
      · rw [conjuncts, parts, List.cons_append]
      · rw [List.cons_append, List.cons_append, conjuncts, whole, List.cons_append]
  | case2 character rest _ nothing => exact absurd nothing (conjuncts_ne_nil rest)
  | case3 character rest noMark first tail parts inductionHypothesis =>
      obtain ⟨others, last, ended, extended⟩ := inductionHypothesis
      have noMarkAfter : ∀ others, character = '&' → rest ++ blanks = '&' :: others → False := by
        intro others isMark follows
        cases rest with
        | nil =>
            apply plain
            rw [← List.nil_append blanks, follows]
            exact List.mem_cons_self
        | cons second rest =>
            rw [List.cons_append, List.cons.injEq] at follows
            exact noMark rest isMark (by rw [follows.1])
      cases others with
      | nil =>
          exact ⟨[], character :: last, conjuncts_cons noMark ended,
            conjuncts_cons noMarkAfter extended⟩
      | cons part others =>
          exact ⟨(character :: part) :: others, last, conjuncts_cons noMark ended,
            conjuncts_cons noMarkAfter extended⟩
  | case4 => exact ⟨[], [], rfl, conjuncts_of_plain plain⟩

/-- The parts of a guard are the same with blanks around it. -/
theorem map_trim_conjuncts_trim (text : List Char) :
    (conjuncts (trim text)).map trim = (conjuncts text).map trim := by
  obtain ⟨_, lead, trail, blankLead, blankTrail, joined⟩ :=
    trim_eq_iff.1 (rfl : trim text = trim text)
  obtain ⟨others, last, parts, whole⟩ := conjuncts_append_blank blankTrail (lead ++ trim text)
  rw [joined] at whole
  rw [whole, List.map_append, List.map_singleton, trim_append_blank blankTrail,
    ← map_trim_conjuncts_blank blankLead, parts, List.map_append, List.map_singleton]

theorem firstInvalid?_conjuncts (text : List Char) :
    firstInvalid? ((conjuncts (trim text)).map literalPlace) =
      firstInvalid? ((conjuncts text).map literalPlace) := by
  have places : literalPlace ∘ trim = literalPlace := by
    funext part
    rw [Function.comp_apply, literalPlace, trim_trim, literalPlace]
  rw [← places, ← List.map_map, ← List.map_map, map_trim_conjuncts_trim]

theorem readGuard_eq_ok_iff {text : List Char} {guard : Guard} :
    readGuard (trim text) = .ok guard ↔ SpellsGuard text guard := by
  have isName : IsName "true" := by decide +kernel
  unfold readGuard
  constructor
  · intro read
    split at read
    · rename_i isTrue
      cases read
      exact .truth (trim_eq_iff.1 isTrue).2
    · rename_i notTrue
      rw [readLiterals_congr (map_trim_conjuncts_trim text)] at read
      obtain ⟨literals, spelt, made⟩ := readLiterals_eq_ok_iff.1 read
      rw [← intercalate_conjuncts text]
      refine .literals (conjuncts_ne_nil text) spelt ?_ (Guard.consists_iff.2 made)
      rintro rfl
      -- The one part is the whole text, so the text would have been `true`.
      cases parts : conjuncts text with
      | nil => exact conjuncts_ne_nil text parts
      | cons part others =>
          rw [parts] at spelt
          cases spelt with
          | cons first rest =>
              cases rest
              cases first with
              | positive name =>
                  have whole := intercalate_conjuncts text
                  rw [parts, List.intercalate_singleton] at whole
                  subst whole
                  exact notTrue (trim_eq_iff.2 ⟨isName.trimmed, name.2⟩)
  · intro spelt
    cases spelt with
    | truth padded => rw [if_pos (trim_eq_iff.2 ⟨isName.trimmed, padded⟩)]
    | literals some_ spelt notTrue consists =>
        rename_i parts literals
        have cut : conjuncts ("&&".toList.intercalate parts) = parts := by
          apply conjuncts_intercalate some_
          exact ((List.forall₂_and_left _ _).1 (spelt.imp fun _ _ here => ⟨here.not_mem_and, here⟩)).1
        rw [if_neg, readLiterals_congr (map_trim_conjuncts_trim _), cut]
        · exact readLiterals_eq_ok_iff.2 ⟨literals, spelt, Guard.consists_iff.1 consists⟩
        · intro isTrue
          have onePart := map_trim_conjuncts_trim ("&&".toList.intercalate parts)
          rw [isTrue, cut, conjuncts_of_plain (isName.not_mem '&' (by decide)), List.map_singleton,
            isName.trimmed.trim_eq] at onePart
          obtain ⟨part, rfl, trims⟩ := List.map_eq_singleton_iff.1 onePart.symm
          cases spelt with
          | cons first rest =>
              cases rest
              have name : SpellsName part "true" := ⟨isName, (trim_eq_iff.1 trims).2⟩
              exact notTrue (congrArg ([·]) (first.eq_of_name name))

theorem readGuard_eq_error_iff {text : List Char} {fault : LineFault} :
    readGuard (trim text) = .error fault ↔
      ∃ word, firstInvalid? ((conjuncts text).map literalPlace) = some word ∧
        fault = .invalidName word := by
  have isName : IsName "true" := by decide +kernel
  unfold readGuard
  split
  · rename_i isTrue
    -- The word `true` would be a name as well.
    have valid : firstInvalid? ((conjuncts text).map literalPlace) = none := by
      rw [← firstInvalid?_conjuncts, isTrue]
      decide +kernel
    simp [valid]
  · rw [readLiterals_eq_error_iff, firstInvalid?_conjuncts]

/-! ## Lines -/

theorem readEdge_eq_ok_iff {left rest : List Char} {line : Line} :
    readEdge left rest = .ok line ↔
      ∃ middle right source target guard, rest = middle ++ ":".toList ++ right ∧
        SpellsName left source ∧ SpellsName middle target ∧ SpellsGuard right guard ∧
          line = .edge ⟨source, guard, target⟩ := by
  constructor
  · intro read
    unfold readEdge at read
    split at read
    · cases read
    rename_i middle right cut
    split at read
    · cases read
    rename_i source readSource
    split at read
    · cases read
    rename_i target readTarget
    split at read
    · cases read
    rename_i guard readsGuard
    cases read
    exact ⟨middle, right, source, target, guard, (cut?_eq_some_iff.1 cut).joined.symm,
      readName_trim_eq_ok_iff.1 readSource, readName_trim_eq_ok_iff.1 readTarget,
      readGuard_eq_ok_iff.1 readsGuard, rfl⟩
  · rintro ⟨middle, right, source, target, guard, rfl, isSource, isTarget, isGuard, rfl⟩
    have cut : cut? [':'] (middle ++ ":".toList ++ right) = some (middle, right) := by
      rw [List.append_assoc]
      exact cut?_single (isTarget.not_mem ':' (by decide)) right
    unfold readEdge
    rw [cut]
    simp only
    rw [readName_trim_eq_ok_iff.2 isSource, readName_trim_eq_ok_iff.2 isTarget,
      readGuard_eq_ok_iff.2 isGuard]

theorem readEdge_eq_error_iff {left rest : List Char} {fault : LineFault} :
    readEdge left rest = .error fault ↔
      ':' ∉ rest ∧ fault = .missingColon ∨
        ∃ middle right word, FirstCut ":".toList middle right rest ∧
          firstInvalid? (left :: middle :: (conjuncts right).map literalPlace) = some word ∧
            fault = .invalidName word := by
  simp only [← cut?_eq_some_iff, ← cut?_single_eq_none_iff]
  change readEdge left rest = .error fault ↔ _ ∨ ∃ middle right word,
    cut? [':'] rest = some (middle, right) ∧ _
  unfold readEdge
  cases cut? [':'] rest with
  | none => simp [eq_comm]
  | some parts =>
      obtain ⟨middle, right⟩ := parts
      have guard := @readGuard_eq_error_iff right fault
      simp only [reduceCtorEq, false_and, false_or, Option.some.injEq, Prod.mk.injEq, and_assoc,
        exists_and_left, exists_eq_left', readName_trim, firstInvalid?_cons]
      by_cases isSource : IsName (nameAt left)
      · by_cases isTarget : IsName (nameAt middle)
        · simp only [isSource, isTarget, if_true]
          rw [← guard]
          cases readGuard (trim right) <;> simp
        · simp [isSource, isTarget, eq_comm]
      · simp [isSource, eq_comm]

/-- The kinds of lines, by how they start and what is in them. -/
theorem content_cases (content : List Char) :
    content = [] ∨ (∃ text, content = "init ".toList ++ text) ∨
      (∃ text, content = "accept ".toList ++ text) ∨
        content ≠ [] ∧ NoKeyword content ∧
          ((∃ left rest, FirstCut "->".toList left rest content) ∨
            ¬ "->".toList <:+: content) := by
  by_cases nothing : content = []
  · exact .inl nothing
  by_cases init : "init ".toList <+: content
  · obtain ⟨text, same⟩ := init
    exact .inr (.inl ⟨text, same.symm⟩)
  by_cases accept : "accept ".toList <+: content
  · obtain ⟨text, same⟩ := accept
    exact .inr (.inr (.inl ⟨text, same.symm⟩))
  refine .inr (.inr (.inr ⟨nothing, ⟨init, accept⟩, ?_⟩))
  cases cut : cut? "->".toList content with
  | none => exact .inr (cut?_eq_none_iff.1 cut)
  | some parts => exact .inl ⟨_, _, cut?_eq_some_iff.1 cut⟩

theorem readTrimmed_keyword_init (text : List Char) :
    readTrimmed ("init ".toList ++ text) = (readName (trim text)).map .initial :=
  readTrimmed_init text

theorem readTrimmed_keyword_accept (text : List Char) :
    readTrimmed ("accept ".toList ++ text) = (readName (trim text)).map .accepting :=
  readTrimmed_accept text

theorem readTrimmed_of_noKeyword {content : List Char} (some_ : content ≠ [])
    (noKeyword : NoKeyword content) :
    readTrimmed content =
      ((cut? "->".toList content).map fun parts => readEdge parts.1 parts.2).getD
        (.error (.unrecognised (String.ofList content))) := by
  have notEmpty : content.isEmpty = false := List.isEmpty_eq_false_iff.2 some_
  rw [readTrimmed, notEmpty, if_neg Bool.false_ne_true, afterStart?_eq_none_iff.2 noKeyword.init,
    afterStart?_eq_none_iff.2 noKeyword.accept]
  cases cut? "->".toList content <;> rfl

theorem readTrimmed_of_arrow {content left rest : List Char} (noKeyword : NoKeyword content)
    (arrow : FirstCut "->".toList left rest content) :
    readTrimmed content = readEdge left rest := by
  have some_ : content ≠ [] := by
    rintro rfl
    have joined := arrow.joined
    simp at joined
  rw [readTrimmed_of_noKeyword some_ noKeyword, cut?_eq_some_iff.2 arrow]
  rfl

theorem map_readName_eq_ok_iff {text : List Char} {make : String → Line} {line : Line} :
    (readName (trim text)).map make = .ok line ↔ ∃ name, SpellsName text name ∧ make name = line := by
  simp only [← readName_trim_eq_ok_iff]
  cases readName (trim text) <;> simp [Except.map]

theorem map_readName_eq_error_iff {text : List Char} {make : String → Line} {fault : LineFault} :
    (readName (trim text)).map make = .error fault ↔
      ∃ word, firstInvalid? [text] = some word ∧ fault = .invalidName word := by
  rw [firstInvalid?_cons, readName_trim]
  split
  · simp [Except.map, firstInvalid?]
  · simp [Except.map, eq_comm]

/-- A line is read as what it spells. -/
theorem readTrimmed_eq_ok_iff {content : List Char} {line : Line} :
    readTrimmed content = .ok line ↔ SpellsContent content line := by
  constructor
  · intro read
    rcases content_cases content with rfl | ⟨text, rfl⟩ | ⟨text, rfl⟩ | ⟨some_, noKeyword, arrow⟩
    · cases read
      exact .empty
    · rw [readTrimmed_keyword_init] at read
      obtain ⟨name, spelt, rfl⟩ := map_readName_eq_ok_iff.1 read
      exact .initial spelt
    · rw [readTrimmed_keyword_accept] at read
      obtain ⟨name, spelt, rfl⟩ := map_readName_eq_ok_iff.1 read
      exact .accepting spelt
    · rcases arrow with ⟨left, rest, arrow⟩ | noArrow
      · rw [readTrimmed_of_arrow noKeyword arrow] at read
        obtain ⟨middle, right, source, target, guard, rfl, isSource, isTarget, isGuard, rfl⟩ :=
          readEdge_eq_ok_iff.1 read
        obtain rfl := arrow.joined
        exact .edge noKeyword isSource isTarget isGuard
      · rw [readTrimmed_of_noKeyword some_ noKeyword, cut?_eq_none_iff.2 noArrow] at read
        cases read
  · intro spelt
    cases spelt with
    | empty => rfl
    | initial spelt =>
        rw [readTrimmed_keyword_init]
        exact map_readName_eq_ok_iff.2 ⟨_, spelt, rfl⟩
    | accepting spelt =>
        rw [readTrimmed_keyword_accept]
        exact map_readName_eq_ok_iff.2 ⟨_, spelt, rfl⟩
    | edge noKeyword sourceSpelt targetSpelt guardSpelt =>
        rename_i left middle right source target guard
        rw [readTrimmed_of_arrow noKeyword (sourceSpelt.firstCut _)]
        exact readEdge_eq_ok_iff.2 ⟨middle, right, source, target, guard, rfl, sourceSpelt,
          targetSpelt, guardSpelt, rfl⟩

/-- A line that spells nothing is refused for what is wrong with it. -/
theorem readTrimmed_eq_error_iff {content : List Char} {fault : LineFault} :
    readTrimmed content = .error fault ↔ Flawed content fault := by
  constructor
  · intro read
    rcases content_cases content with rfl | ⟨text, rfl⟩ | ⟨text, rfl⟩ | ⟨some_, noKeyword, arrow⟩
    · cases read
    · rw [readTrimmed_keyword_init] at read
      obtain ⟨word, first, rfl⟩ := map_readName_eq_error_iff.1 read
      exact .invalidName (.initial text) first
    · rw [readTrimmed_keyword_accept] at read
      obtain ⟨word, first, rfl⟩ := map_readName_eq_error_iff.1 read
      exact .invalidName (.accepting text) first
    · rcases arrow with ⟨left, rest, arrow⟩ | noArrow
      · rw [readTrimmed_of_arrow noKeyword arrow] at read
        rcases readEdge_eq_error_iff.1 read with ⟨noColon, rfl⟩ |
          ⟨middle, right, word, colon, first, rfl⟩
        · exact .missingColon noKeyword arrow noColon
        · exact .invalidName (.edge noKeyword arrow colon) first
      · rw [readTrimmed_of_noKeyword some_ noKeyword, cut?_eq_none_iff.2 noArrow] at read
        cases read
        exact .unrecognised some_ noKeyword noArrow
  · intro flawed
    cases flawed with
    | unrecognised some_ noKeyword noArrow =>
        rw [readTrimmed_of_noKeyword some_ noKeyword, cut?_eq_none_iff.2 noArrow]
        rfl
    | missingColon noKeyword arrow noColon =>
        rw [readTrimmed_of_arrow noKeyword arrow]
        exact readEdge_eq_error_iff.2 (.inl ⟨noColon, rfl⟩)
    | invalidName expected first =>
        cases expected with
        | initial text =>
            rw [readTrimmed_keyword_init]
            exact map_readName_eq_error_iff.2 ⟨_, first, rfl⟩
        | accepting text =>
            rw [readTrimmed_keyword_accept]
            exact map_readName_eq_error_iff.2 ⟨_, first, rfl⟩
        | edge noKeyword arrow colon =>
            rw [readTrimmed_of_arrow noKeyword arrow]
            exact readEdge_eq_error_iff.2 (.inr ⟨_, _, _, colon, first, rfl⟩)

theorem read_eq_ok_iff {text : List Char} {line : Line} :
    read text = .ok line ↔ SpellsLine text line := by
  simp only [SpellsLine, isContent_iff, exists_eq_left', ← readTrimmed_eq_ok_iff]
  rfl

theorem read_eq_error_iff {text : List Char} {fault : LineFault} :
    read text = .error fault ↔ ∃ content, IsContent text content ∧ Flawed content fault := by
  simp only [isContent_iff, exists_eq_left', ← readTrimmed_eq_error_iff]
  rfl

end Line

end OnTheFly
