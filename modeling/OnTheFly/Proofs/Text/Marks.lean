import Mathlib.Data.List.TakeWhile
import OnTheFly.Text.Blank
import OnTheFly.Text.Split

/-!
Contract: text that was put together with marks is cut at the same places.

Owns: the lines of texts ended by line feeds, the parts around a mark that
stands nowhere before, and text between blanks.

Each statement asks only that the mark is absent from what stands before it.
-/

set_option autoImplicit false

namespace OnTheFly.Text

/-! ## Lines -/

theorem lines_append {text : List Char} (plain : '\n' ∉ text) (rest : List Char) :
    lines (text ++ '\n' :: rest) = text :: lines rest := by
  induction text with
  | nil => simp [lines]
  | cons character text inductionHypothesis =>
      have different : character ≠ '\n' := fun same => plain (same ▸ List.mem_cons_self)
      have others : '\n' ∉ text := fun member => plain (List.mem_cons_of_mem _ member)
      rw [List.cons_append, lines, if_neg different, inductionHypothesis others]

/-- Texts that are each ended by a line feed are the lines of what they make
together, and one more line is empty. -/
theorem lines_flatMap {texts : List (List Char)} (plain : ∀ text ∈ texts, '\n' ∉ text) :
    lines (texts.flatMap (· ++ ['\n'])) = texts ++ [[]] := by
  induction texts with
  | nil => rfl
  | cons text texts inductionHypothesis =>
      have others := inductionHypothesis fun other member =>
        plain other (List.mem_cons_of_mem _ member)
      rw [List.flatMap_cons, List.append_assoc, List.singleton_append,
        lines_append (plain text List.mem_cons_self), others, List.cons_append]

/-! ## Marks -/

theorem before_eq_self {mark : Char} {text : List Char} (absent : mark ∉ text) :
    before mark text = text := by
  apply List.takeWhile_eq_self_iff.2
  intro character member
  simp only [ne_eq, decide_not, Bool.not_eq_eq_eq_not, Bool.not_true, decide_eq_false_iff_not]
  exact fun same => absent (same ▸ member)

theorem afterStart?_eq_some_iff {mark text rest : List Char} :
    afterStart? mark text = some rest ↔ text = mark ++ rest := by
  induction mark generalizing text with
  | nil => simp [afterStart?, eq_comm]
  | cons expected mark inductionHypothesis =>
      cases text with
      | nil => simp [afterStart?]
      | cons character text =>
          by_cases same : character = expected
          · simp [afterStart?, same, inductionHypothesis]
          · simp [afterStart?, same]

/-- A mark that starts nowhere before is where the text is cut. -/
theorem cut?_append {mark left right : List Char}
    (first : ∀ start, start ≠ [] → start <:+ left →
      afterStart? mark (start ++ mark ++ right) = none) :
    cut? mark (left ++ mark ++ right) = some (left, right) := by
  induction left with
  | nil =>
      have found : afterStart? mark (mark ++ right) = some right := afterStart?_eq_some_iff.2 rfl
      cases mark with
      | nil => cases right <;> rfl
      | cons expected mark =>
          rw [List.nil_append, List.cons_append, cut?, ← List.cons_append, found]
  | cons character left inductionHypothesis =>
      have notHere := first (character :: left) (List.cons_ne_nil _ _) List.suffix_rfl
      have later := inductionHypothesis fun start some_ suffix =>
        first start some_ (suffix.trans (List.suffix_cons character left))
      simp only [List.cons_append] at notHere later ⊢
      rw [cut?, notHere, later]
      rfl

theorem cut?_single {mark : Char} {left : List Char} (absent : mark ∉ left)
    (right : List Char) : cut? [mark] (left ++ mark :: right) = some (left, right) := by
  have cut : cut? [mark] (left ++ [mark] ++ right) = some (left, right) := by
    apply cut?_append
    intro start some_ suffix
    cases start with
    | nil => exact absurd rfl some_
    | cons character start =>
        have different : character ≠ mark := by
          rintro rfl
          exact absent (suffix.subset List.mem_cons_self)
        simp [afterStart?, different]
  rwa [List.append_assoc, List.singleton_append] at cut

/-- A mark of two characters is found by the second one. -/
theorem cut?_pair {first second : Char} (different : first ≠ second) {left : List Char}
    (absent : second ∉ left) (right : List Char) :
    cut? [first, second] (left ++ first :: second :: right) = some (left, right) := by
  have cut : cut? [first, second] (left ++ [first, second] ++ right) = some (left, right) := by
    apply cut?_append
    intro start some_ suffix
    match start with
    | [] => exact absurd rfl some_
    | [character] => simp [afterStart?, different]
    | character :: next :: start =>
        have other : next ≠ second := by
          rintro rfl
          exact absent (suffix.subset (List.mem_cons_of_mem _ List.mem_cons_self))
        simp [afterStart?, other]
  rwa [List.append_assoc, List.cons_append, List.singleton_append] at cut

/-! ## Blanks -/

/-- Whether no blank stands at either end. -/
structure Trimmed (text : List Char) : Prop where
  head {character : Char} : text.head? = some character → isBlank character = false
  last {character : Char} : text.getLast? = some character → isBlank character = false

theorem Trimmed.join {left right : List Char} (leftTrimmed : Trimmed left) (someLeft : left ≠ [])
    (rightTrimmed : Trimmed right) (someRight : right ≠ []) (middle : List Char) :
    Trimmed (left ++ middle ++ right) where
  head {character} first := by
    rw [List.append_assoc, List.head?_append, List.head?_eq_some_head someLeft,
      Option.some_or] at first
    exact leftTrimmed.head ((List.head?_eq_some_head someLeft).trans first)
  last {character} last := by
    rw [List.getLast?_append, List.getLast?_eq_some_getLast someRight, Option.some_or] at last
    exact rightTrimmed.last ((List.getLast?_eq_some_getLast someRight).trans last)

theorem trimStart_append {blanks text : List Char} (blank : ∀ character ∈ blanks, isBlank character)
    (head : ∀ character, text.head? = some character → isBlank character = false) :
    trimStart (blanks ++ text) = text := by
  rw [trimStart, List.dropWhile_append_of_pos blank]
  cases text with
  | nil => rfl
  | cons character text => rw [List.dropWhile_cons_of_neg]; simp [head character rfl]

theorem trim_append {before text after : List Char} (blankBefore : before.all isBlank = true)
    (blankAfter : after.all isBlank = true) (trimmed : Trimmed text) :
    trim (before ++ text ++ after) = text := by
  rw [List.all_eq_true] at blankBefore blankAfter
  cases text with
  | nil =>
      have blank : ∀ character ∈ before ++ after, isBlank character := by
        intro character member
        exact (List.mem_append.1 member).elim (blankBefore character) (blankAfter character)
      have nothing : trimStart (before ++ after ++ []) = [] := trimStart_append blank (by simp)
      rw [List.append_nil] at nothing
      rw [trim, List.append_nil, nothing]
      rfl
  | cons first rest =>
      have fromStart : trimStart (before ++ (first :: rest ++ after)) = first :: rest ++ after :=
        trimStart_append blankBefore fun character atHead => trimmed.head (by simpa using atHead)
      have fromEnd : trimStart (after.reverse ++ (first :: rest).reverse) =
          (first :: rest).reverse := by
        apply trimStart_append
        · intro character member
          exact blankAfter character (List.mem_reverse.1 member)
        · intro character atHead
          exact trimmed.last (by rwa [List.head?_reverse] at atHead)
      rw [List.append_assoc, trim, fromStart, trimEnd, List.reverse_append, fromEnd,
        List.reverse_reverse]

theorem Trimmed.trim_eq {text : List Char} (trimmed : Trimmed text) : trim text = text := by
  have same : trim ([] ++ text ++ []) = text := trim_append (by simp) (by simp) trimmed
  simpa using same

end OnTheFly.Text
