import Mathlib.Data.List.Infix
import OnTheFly.Proofs.Text.Marks

/-!
Contract: what the parts of a text say about the text.

Owns: that cutting a text gives exactly the parts that make it up again: its
lines, the part before a mark, the parts around the first occurrence of a mark,
and the part between blanks.

Each statement is an equivalence, so nothing else can be got by cutting.
-/

set_option autoImplicit false

namespace OnTheFly.Text

/-! ## Lines -/

/-- Whether a text consists of these lines, with a line feed between each two. -/
structure IsLines (text : List Char) (texts : List (List Char)) : Prop where
  some_ : texts ≠ []
  plain {line : List Char} : line ∈ texts → '\n' ∉ line
  joined : ['\n'].intercalate texts = text

theorem lines_eq_splitOn (text : List Char) : lines text = text.splitOn '\n' := by
  induction text with
  | nil => rfl
  | cons character text inductionHypothesis =>
      rw [lines, List.splitOn_cons_eq_if_modifyHead, ← inductionHypothesis]
      by_cases feed : character = '\n'
      · simp [feed]
      · rw [if_neg feed, if_neg (by simpa using feed)]
        cases others : lines text with
        | nil =>
            rw [inductionHypothesis] at others
            exact absurd others (List.splitOn_ne_nil _ _)
        | cons line others => rfl

theorem not_mem_of_mem_lines {text line : List Char} (member : line ∈ lines text) :
    '\n' ∉ line := by
  induction text generalizing line with
  | nil =>
      rw [List.mem_singleton.1 member]
      exact List.not_mem_nil
  | cons character text inductionHypothesis =>
      unfold lines at member
      split at member
      · rcases List.mem_cons.1 member with rfl | later
        · exact List.not_mem_nil
        · exact inductionHypothesis later
      · rename_i different
        have extended {first : List Char} (plain : '\n' ∉ first) : '\n' ∉ character :: first := by
          rw [List.mem_cons, not_or]
          exact ⟨fun same => different same.symm, plain⟩
        split at member
        · rw [List.mem_singleton.1 member]
          exact extended List.not_mem_nil
        · rename_i first others here
          rw [here] at inductionHypothesis
          rcases List.mem_cons.1 member with rfl | later
          · exact extended (inductionHypothesis List.mem_cons_self)
          · exact inductionHypothesis (List.mem_cons_of_mem _ later)

theorem isLines_iff {text : List Char} {texts : List (List Char)} :
    IsLines text texts ↔ lines text = texts := by
  rw [lines_eq_splitOn]
  constructor
  · rintro ⟨some_, plain, rfl⟩
    exact List.splitOn_intercalate '\n' (fun _ => plain) some_
  · rintro rfl
    refine ⟨List.splitOn_ne_nil _ _, fun member => ?_, List.intercalate_splitOn '\n'⟩
    rw [← lines_eq_splitOn] at member
    exact not_mem_of_mem_lines member

/-! ## Marks -/

/-- Whether `kept` is the text up to the first occurrence of a character. -/
inductive EndsAt (mark : Char) (kept : List Char) : List Char → Prop where
  | never (absent : mark ∉ kept) : EndsAt mark kept kept
  | mark (absent : mark ∉ kept) (rest : List Char) : EndsAt mark kept (kept ++ mark :: rest)

theorem endsAt_iff {mark : Char} {kept text : List Char} :
    EndsAt mark kept text ↔ before mark text = kept := by
  constructor
  · intro ends
    cases ends with
    | never absent => exact before_eq_self absent
    | mark absent rest =>
        have whole : before mark kept = kept := before_eq_self absent
        unfold before at whole ⊢
        rw [List.takeWhile_append_of_pos]
        · simp
        · intro character member
          simpa using fun same : character = mark => absent (same ▸ member)
  · rintro rfl
    have absent : mark ∉ before mark text := by
      intro member
      have different := List.mem_takeWhile_imp member
      simp at different
    have parts : before mark text ++ text.dropWhile (· ≠ mark) = text :=
      List.takeWhile_append_dropWhile
    cases rest : text.dropWhile (· ≠ mark) with
    | nil =>
        rw [rest, List.append_nil] at parts
        conv => arg 3; rw [← parts]
        exact .never absent
    | cons first rest_ =>
        have isMark := List.head?_dropWhile_not (· ≠ mark) text
        rw [rest] at isMark
        have same : first = mark := by simpa using isMark
        subst same
        rw [rest] at parts
        conv => arg 3; rw [← parts]
        exact .mark absent rest_

/-- Whether a text is cut in two at the first occurrence of a mark. -/
structure FirstCut (mark left right text : List Char) : Prop where
  joined : left ++ mark ++ right = text
  first {others rest : List Char} : others ++ mark ++ rest = text → left.length ≤ others.length

theorem afterStart?_eq_none_iff {mark text : List Char} :
    afterStart? mark text = none ↔ ¬ mark <+: text := by
  rw [← not_iff_not, not_not, ← ne_eq, Option.ne_none_iff_exists']
  simp only [afterStart?_eq_some_iff]
  exact ⟨fun ⟨rest, same⟩ => ⟨rest, same.symm⟩, fun ⟨rest, same⟩ => ⟨rest, same.symm⟩⟩

theorem cut?_eq_some_iff {mark text left right : List Char} :
    cut? mark text = some (left, right) ↔ FirstCut mark left right text := by
  induction text generalizing left with
  | nil =>
      unfold cut?
      constructor
      · intro cut
        obtain ⟨rest, found, same⟩ := Option.map_eq_some_iff.1 cut
        cases same
        exact ⟨(afterStart?_eq_some_iff.1 found).symm, fun _ => Nat.zero_le _⟩
      · rintro ⟨joined, _⟩
        obtain ⟨rfl, rfl, rfl⟩ : left = [] ∧ mark = [] ∧ right = [] := by simpa using joined
        rfl
  | cons character text inductionHypothesis =>
      unfold cut?
      cases found : afterStart? mark (character :: text) with
      | some rest =>
          have starts := afterStart?_eq_some_iff.1 found
          simp only [Option.some.injEq, Prod.mk.injEq]
          constructor
          · rintro ⟨rfl, rfl⟩
            exact ⟨starts.symm, fun _ => Nat.zero_le _⟩
          · rintro ⟨joined, first⟩
            have atStart : left.length ≤ 0 := @first [] rest starts.symm
            obtain rfl := List.eq_nil_of_length_eq_zero (Nat.le_zero.1 atStart)
            exact ⟨rfl, List.append_cancel_left (starts.symm.trans joined.symm)⟩
      | none =>
          have notHere := afterStart?_eq_none_iff.1 found
          simp only [Option.map_eq_some_iff, Prod.mk.injEq, Prod.exists]
          constructor
          · rintro ⟨_, _, cut, rfl, rfl⟩
            obtain ⟨joined, first⟩ := inductionHypothesis.1 cut
            refine ⟨by rw [← joined]; rfl, fun {others rest} other => ?_⟩
            cases others with
            | nil => exact absurd ⟨rest, other⟩ notHere
            | cons _ others =>
                rw [List.cons_append, List.cons_append, List.cons.injEq] at other
                exact Nat.succ_le_succ (first other.2)
          · rintro ⟨joined, first⟩
            cases left with
            | nil => exact absurd ⟨right, joined⟩ notHere
            | cons _ left =>
                rw [List.cons_append, List.cons_append, List.cons.injEq] at joined
                obtain ⟨rfl, joined⟩ := joined
                refine ⟨left, right, inductionHypothesis.2 ⟨joined, fun {others rest} other => ?_⟩,
                  rfl, rfl⟩
                have shorter := @first (_ :: others) rest (congrArg (List.cons _) other)
                exact Nat.le_of_succ_le_succ shorter

theorem cut?_eq_none_iff {mark text : List Char} :
    cut? mark text = none ↔ ¬ mark <:+: text := by
  induction text with
  | nil =>
      rw [cut?, Option.map_eq_none_iff, afterStart?_eq_none_iff, List.infix_nil, List.prefix_nil]
  | cons character text inductionHypothesis =>
      unfold cut?
      rw [List.infix_cons_iff, not_or, ← inductionHypothesis, ← afterStart?_eq_none_iff]
      cases afterStart? mark (character :: text) <;> simp

theorem cut?_single_eq_none_iff {mark : Char} {text : List Char} :
    cut? [mark] text = none ↔ mark ∉ text := by
  rw [cut?_eq_none_iff, List.singleton_infix_iff]

/-! ## Blanks -/

/-- Whether a text is another one with blanks around it. -/
def Padded (inner text : List Char) : Prop :=
  ∃ lead trail : List Char, lead.all isBlank = true ∧ trail.all isBlank = true ∧
    lead ++ inner ++ trail = text

theorem not_mem_of_blank {blanks : List Char} (blank : blanks.all isBlank = true) {mark : Char}
    (visible : isBlank mark = false) : mark ∉ blanks := by
  intro member
  rw [List.all_eq_true.1 blank mark member] at visible
  cases visible

theorem Padded.not_mem {inner text : List Char} (padded : Padded inner text) {mark : Char}
    (visible : isBlank mark = false) (absent : mark ∉ inner) : mark ∉ text := by
  obtain ⟨lead, trail, blankLead, blankTrail, rfl⟩ := padded
  simp [not_mem_of_blank blankLead visible, not_mem_of_blank blankTrail visible, absent]

theorem isBlank_head_trimStart {text : List Char} {character : Char}
    (first : (trimStart text).head? = some character) : isBlank character = false := by
  have visible := List.head?_dropWhile_not isBlank text
  rw [← trimStart, first] at visible
  exact visible

theorem trimStart_spec (text : List Char) :
    ∃ blanks : List Char, blanks.all isBlank = true ∧ blanks ++ trimStart text = text :=
  ⟨text.takeWhile isBlank, List.all_takeWhile, List.takeWhile_append_dropWhile⟩

theorem trim_eq_iff {text inner : List Char} :
    trim text = inner ↔ Trimmed inner ∧ Padded inner text := by
  constructor
  · rintro rfl
    obtain ⟨lead, blankLead, joined⟩ := trimStart_spec text
    obtain ⟨trail, blankTrail, joinedBack⟩ := trimStart_spec (trimStart text).reverse
    have rest : trim text ++ trail.reverse = trimStart text := by
      rw [trim, trimEnd, ← List.reverse_append, joinedBack, List.reverse_reverse]
    refine ⟨⟨fun {character} first => ?_, fun {character} last => ?_⟩, lead, trail.reverse,
      blankLead, by simpa using blankTrail, ?_⟩
    · apply @isBlank_head_trimStart text
      rw [← rest, List.head?_append, first]
      rfl
    · rw [trim, trimEnd, List.getLast?_reverse] at last
      exact isBlank_head_trimStart last
    · rw [List.append_assoc, rest, joined]
  · rintro ⟨trimmed, lead, trail, blankLead, blankTrail, rfl⟩
    exact trim_append blankLead blankTrail trimmed

theorem trim_trim (text : List Char) : trim (trim text) = trim text :=
  (trim_eq_iff.1 rfl).1.trim_eq

theorem trim_blank_append {blanks text : List Char} (blank : blanks.all isBlank = true) :
    trim (blanks ++ text) = trim text := by
  obtain ⟨trimmed, lead, trail, blankLead, blankTrail, joined⟩ :=
    trim_eq_iff.1 (rfl : trim text = trim text)
  refine trim_eq_iff.2 ⟨trimmed, blanks ++ lead, trail, ?_, blankTrail, ?_⟩
  · rw [List.all_append, blank, blankLead]
    rfl
  · rw [List.append_assoc, List.append_assoc, ← List.append_assoc lead, joined]

theorem trim_append_blank {blanks text : List Char} (blank : blanks.all isBlank = true) :
    trim (text ++ blanks) = trim text := by
  obtain ⟨trimmed, lead, trail, blankLead, blankTrail, joined⟩ :=
    trim_eq_iff.1 (rfl : trim text = trim text)
  refine trim_eq_iff.2 ⟨trimmed, lead, trail ++ blanks, blankLead, ?_, ?_⟩
  · rw [List.all_append, blank, blankTrail]
    rfl
  · rw [← List.append_assoc, joined]

end OnTheFly.Text
