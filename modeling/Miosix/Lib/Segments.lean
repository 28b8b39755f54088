/-
This file is the library of texts that are made of segments with a separator in front of each of
them, such as the components of a path. It has the searches of strings for a separator, forwards
and backwards from a position, and says what they find at the border of a segment.
-/

import Mathlib.Tactic

namespace Miosix.Segments

open List

variable {Symbol : Type} {separator : Symbol}

/-! ### Texts -/

/-- Every segment with a separator in front of it. -/
def render (separator : Symbol) (segments : List (List Symbol)) : List Symbol :=
  segments.flatMap (separator :: ·)

theorem render_nil : render separator [] = [] := rfl

theorem render_append {first second : List (List Symbol)} :
    render separator (first ++ second) = render separator first ++ render separator second :=
  flatMap_append

theorem render_concat {init : List (List Symbol)} {segment : List Symbol} :
    render separator (init ++ [segment]) = render separator init ++ separator :: segment := by
  rw [render_append]
  exact congrArg (render separator init ++ ·) (append_nil _)

theorem length_render_concat (init : List (List Symbol)) (segment : List Symbol) :
    (render separator (init ++ [segment])).length =
      (render separator init).length + segment.length + 1 := by
  rw [render_concat, length_append, length_cons]
  omega

theorem intercalate_cons_eq {segment : List Symbol}
    {more : List (List Symbol)} :
    [separator].intercalate (segment :: more) = segment ++ render separator more := by
  induction more generalizing segment with
  | nil => rw [intercalate_singleton, render_nil, append_nil]
  | cons next others inductionHypothesis =>
    rw [intercalate_cons_cons, inductionHypothesis, append_assoc]
    rfl

variable [DecidableEq Symbol]

/-- The first separator from a position on. -/
def findFirst (separator : Symbol) (text : List Symbol) (position : Nat) : Option Nat :=
  let passed := ((text.drop position).takeWhile (· ≠ separator)).length
  if position + passed < text.length then some (position + passed) else none

/-- The last separator up to a position. -/
def findLast (separator : Symbol) (text : List Symbol) : Nat → Option Nat
  | 0 => if text[0]? = some separator then some 0 else none
  | position + 1 =>
      if text[position + 1]? = some separator then some (position + 1)
      else findLast separator text position

variable {segment rest text front : List Symbol}

theorem takeWhile_append_plain (plain : separator ∉ segment) (rest : List Symbol) :
    (segment ++ rest).takeWhile (· ≠ separator) = segment ++ rest.takeWhile (· ≠ separator) := by
  refine takeWhile_append_of_pos fun symbol listed => decide_eq_true ?_
  rintro rfl
  exact plain listed

theorem takeWhile_append_separator (plain : separator ∉ segment) :
    (segment ++ separator :: rest).takeWhile (· ≠ separator) = segment := by
  rw [takeWhile_append_plain plain, takeWhile_cons_of_neg (by simp), append_nil]

theorem takeWhile_of_plain (plain : separator ∉ segment) :
    segment.takeWhile (· ≠ separator) = segment := by
  have whole := takeWhile_append_plain plain []
  rwa [append_nil, takeWhile_nil, append_nil] at whole

/-- Every text is one segment, or a segment and what is behind the separator that follows it. -/
theorem exists_segment (text : List Symbol) : ∃ segment, separator ∉ segment ∧
      (text = segment ∨ ∃ rest, text = segment ++ separator :: rest) := by
  by_cases listed : separator ∈ text
  · obtain ⟨segment, rest, found, plain⟩ := eq_append_cons_of_mem listed
    exact ⟨segment, plain, .inr ⟨rest, found⟩⟩
  · exact ⟨text, listed, .inl rfl⟩

/-! ### Splitting -/

theorem plain_of_mem_splitOn (listed : segment ∈ text.splitOn separator) : separator ∉ segment := by
  induction size : text.length using Nat.strong_induction_on generalizing text with
  | _ size inductionHypothesis =>
    obtain ⟨first, plain, rfl | ⟨rest, rfl⟩⟩ := @exists_segment _ separator _ text
    · rw [splitOn_eq_singleton plain] at listed
      rwa [mem_singleton.mp listed]
    · rw [splitOn_append_cons_self_of_not_mem plain] at listed
      rw [length_append, length_cons] at size
      rcases mem_cons.mp listed with rfl | later
      · exact plain
      · exact inductionHypothesis rest.length (by omega) later rfl

/-- The segments make up the text again. -/
theorem render_splitOn : render separator (text.splitOn separator) = separator :: text := by
  have joined := @intercalate_splitOn _ text _ _ separator
  obtain ⟨first, more, found⟩ := exists_cons_of_ne_nil (splitOn_ne_nil separator text)
  rw [found, intercalate_cons_eq] at joined
  rw [found, ← joined]
  rfl

/-- A text that starts with a separator consists of segments. -/
theorem exists_render (text : List Symbol) :
    ∃ segments, (∀ segment ∈ segments, separator ∉ segment) ∧
      separator :: text = render separator segments ∧ segments ≠ [] :=
  ⟨text.splitOn separator, fun _ => plain_of_mem_splitOn, render_splitOn.symm, splitOn_ne_nil _ _⟩

/-- The segments of a text that starts with a separator are those behind the empty one. -/
theorem splitOn_render {segments : List (List Symbol)}
    (plain : ∀ segment ∈ segments, separator ∉ segment) :
    (render separator segments).splitOn separator = [] :: segments := by
  have parts := splitOn_intercalate separator (forall_mem_cons.mpr ⟨not_mem_nil, plain⟩)
    (cons_ne_nil _ _)
  rwa [intercalate_cons_eq, nil_append] at parts

/-- The text goes on with a separator exactly if there are more segments. -/
theorem splitOn_eq_append_iff :
    (∃ more, more ≠ [] ∧ text.splitOn separator = front.splitOn separator ++ more) ↔
      front ++ [separator] <+: text := by
  constructor
  · rintro ⟨more, nonempty, segments⟩
    have rendered := congrArg (render separator) segments
    rw [render_append, render_splitOn, render_splitOn, cons_append] at rendered
    obtain ⟨first, others, rfl⟩ := exists_cons_of_ne_nil nonempty
    refine ⟨first ++ render separator others, ?_⟩
    rw [tail_eq_of_cons_eq rendered, append_assoc]
    rfl
  · rintro ⟨rest, rfl⟩
    refine ⟨rest.splitOn separator, splitOn_ne_nil _ _, ?_⟩
    rw [append_assoc]
    exact splitOn_append_cons_self front rest

/-! ### Searching -/

theorem findFirst_append_separator (plain : separator ∉ segment) :
    findFirst separator (front ++ (segment ++ separator :: rest)) front.length =
      some (front.length + segment.length) := by
  unfold findFirst
  rw [drop_left, takeWhile_append_separator plain]
  refine if_pos ?_
  simp only [length_append, length_cons]
  omega

theorem findFirst_of_plain (plain : separator ∉ segment) :
    findFirst separator (front ++ segment) front.length = none := by
  unfold findFirst
  rw [drop_left, takeWhile_of_plain plain]
  refine if_neg ?_
  rw [length_append]
  omega

/-- The last separator is where there is one and none follows. -/
theorem findLast_eq_some {place position : Nat} (found : text[place]? = some separator)
    (reached : place ≤ position)
    (noneBehind : ∀ other, place < other → other ≤ position → text[other]? ≠ some separator) :
    findLast separator text position = some place := by
  induction position with
  | zero =>
    obtain rfl : place = 0 := by omega
    exact if_pos found
  | succ position inductionHypothesis =>
    rcases Nat.eq_or_lt_of_le reached with rfl | before
    · exact if_pos found
    · rw [findLast, if_neg (noneBehind (position + 1) before le_rfl)]
      exact inductionHypothesis (by omega) fun other behind within =>
        noneBehind other behind (by omega)

/-- From inside a segment, or from its end, the last separator is the one in front of it. -/
theorem findLast_segment {front segment rest : List Symbol} {position : Nat}
    (plain : separator ∉ segment) (behind : front.length ≤ position)
    (within : position ≤ front.length + segment.length ∨ rest = []) :
    findLast separator (front ++ (separator :: segment ++ rest)) position = some front.length := by
  refine findLast_eq_some ?_ behind fun other later reached => ?_
  · rw [List.getElem?_append_right le_rfl, Nat.sub_self]
    rfl
  · rw [List.getElem?_append_right (by omega), cons_append]
    obtain ⟨offset, here⟩ := Nat.exists_eq_add_of_lt later
    rw [show other - front.length = offset + 1 by omega, List.getElem?_cons_succ]
    intro found
    rcases within with inside | rfl
    · rw [List.getElem?_append_left (by omega)] at found
      exact plain (mem_of_getElem? found)
    · rw [append_nil] at found
      exact plain (mem_of_getElem? found)

end Miosix.Segments
