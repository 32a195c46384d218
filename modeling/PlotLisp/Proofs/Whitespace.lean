import Mathlib.Data.List.DropRight
import PlotLisp.Whitespace

/-!
# Trimmed texts

Trimming takes nothing but white space away from the ends of a text, and it leaves none there.
These two facts determine the trimmed text.
-/

namespace PlotLisp.Whitespace

variable {text core : List Char}

/-- The core is what is left of a text when only white space is taken away at its ends, and when
no more of it is there to be taken. -/
structure IsTrimmed (text core : List Char) : Prop where
  parts : ∃ front back, text = front ++ (core ++ back) ∧
    (∀ character ∈ front, isSpace character = true) ∧
      ∀ character ∈ back, isSpace character = true
  first : ∀ character ∈ core.head?, isSpace character = false
  last : ∀ character ∈ core.getLast?, isSpace character = false

/-- A text is white space, and then what is left without white space at its front. -/
theorem exists_front (text : List Char) :
    ∃ front, text = front ++ text.dropWhile isSpace ∧
      ∀ character ∈ front, isSpace character = true :=
  ⟨text.takeWhile isSpace, List.takeWhile_append_dropWhile.symm, fun _ => List.mem_takeWhile_imp⟩

/-- What is left starts with no white space. -/
theorem isSpace_of_head?_dropWhile (text : List Char) {character : Char}
    (first : character ∈ (text.dropWhile isSpace).head?) : isSpace character = false := by
  have stops := List.head?_dropWhile_not isSpace text
  rw [Option.mem_def.mp first] at stops
  simpa using stops

/-- Trimming leaves the core of a text. -/
theorem trimList_isTrimmed (text : List Char) : IsTrimmed text (trimList text) := by
  obtain ⟨front, split, before⟩ := exists_front text
  obtain ⟨back, split', behind⟩ := exists_front (text.dropWhile isSpace).reverse
  have rest : text.dropWhile isSpace = trimList text ++ back.reverse := by
    rw [trimList, ← List.reverse_append, ← split', List.reverse_reverse]
  refine ⟨⟨front, back.reverse, ?_, before, fun character member => ?_⟩,
    fun character first => ?_, fun character last => ?_⟩
  · rw [← rest]
    exact split
  · exact behind character (List.mem_reverse.mp member)
  · refine isSpace_of_head?_dropWhile text ?_
    rw [rest, List.head?_append, Option.mem_def.mp first]
    rfl
  · refine isSpace_of_head?_dropWhile (text.dropWhile isSpace).reverse ?_
    rwa [trimList, List.getLast?_reverse] at last

/-- White space is taken away up to what starts with none. -/
theorem dropWhile_eq {front rest : List Char}
    (before : ∀ character ∈ front, isSpace character = true)
    (first : ∀ character ∈ rest.head?, isSpace character = false) :
    (front ++ rest).dropWhile isSpace = rest := by
  rw [List.dropWhile_append_of_pos before]
  cases rest with
  | nil => rfl
  | cons character rest => rw [List.dropWhile_cons_of_neg (by simp [first character rfl])]

/-- There is one core only. -/
theorem IsTrimmed.trimList_eq (trimmed : IsTrimmed text core) : trimList text = core := by
  obtain ⟨⟨front, back, rfl, before, behind⟩, first, last⟩ := trimmed
  have behindReversed : ∀ character ∈ back.reverse, isSpace character = true :=
    fun character member => behind character (List.mem_reverse.mp member)
  by_cases empty : core = []
  · subst empty
    -- All of the text is white space, and the first step takes all of it away.
    have nothing : (front ++ ([] ++ back)).dropWhile isSpace = [] :=
      List.dropWhile_eq_nil_iff.mpr (List.forall_mem_append.mpr ⟨before, behind⟩)
    rw [trimList, nothing]
    rfl
  · have begins : ∀ character ∈ (core ++ back).head?, isSpace character = false := by
      rwa [List.head?_append_of_ne_nil core empty]
    have ends : ∀ character ∈ core.reverse.head?, isSpace character = false := by
      rwa [List.head?_reverse]
    rw [trimList, dropWhile_eq before begins, List.reverse_append,
      dropWhile_eq behindReversed ends, List.reverse_reverse]

/-- Trimming a text gives its core and nothing else. -/
theorem trim_eq_iff {text core : String} : trim text = core ↔ IsTrimmed text.toList core.toList := by
  constructor
  · rintro rfl
    rw [trim, String.toList_ofList]
    exact trimList_isTrimmed text.toList
  · intro trimmed
    rw [trim, trimmed.trimList_eq, String.ofList_toList]

/-- There is nothing left to trim. -/
theorem trim_trim (text : String) : trim (trim text) = trim text := by
  have trimmed := trim_eq_iff.mp (rfl : trim text = trim text)
  exact trim_eq_iff.mpr ⟨⟨[], [], by simp, by simp, by simp⟩, trimmed.first, trimmed.last⟩

end PlotLisp.Whitespace
