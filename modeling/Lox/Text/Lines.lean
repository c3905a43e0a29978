/-!
# Lines

A text is cut into lines after each line feed. A line loses its line feed, and the carriage return
right before it; the last line need not end in a line feed.

`lines_append_break`: a text whose first part ends in a line feed has the lines of the first part, and
then those of the rest.
-/

namespace Lox.Text

/-- The lines of a text read so far from its end. -/
structure Cut where
  /-- Whether the first character read so far is a line feed. -/
  atBreak : Bool
  /-- The lines so far, the first of them possibly still to grow at its front. -/
  lines : List (List Char)

namespace Cut

def empty : Cut := ⟨false, []⟩

/-- Read one more character, in front of those read so far. -/
def push (c : Char) (cut : Cut) : Cut :=
  if c = '\n' then ⟨true, [] :: cut.lines⟩
  else if c = '\r' ∧ cut.atBreak then ⟨false, cut.lines⟩
  else
    match cut.lines with
    | [] => ⟨false, [[c]]⟩
    | line :: rest => ⟨false, (c :: line) :: rest⟩

end Cut

def lines (text : List Char) : List (List Char) := (text.foldr Cut.push Cut.empty).lines

/-! ## Lines of a text in two parts -/

/-- A cut with more lines after its own. -/
def Cut.append (cut : Cut) (more : List (List Char)) : Cut := ⟨cut.atBreak, cut.lines ++ more⟩

theorem Cut.push_append (c : Char) (cut : Cut) (more : List (List Char)) (h : cut.lines ≠ []) :
    (cut.append more).push c = (cut.push c).append more ∧ (cut.push c).lines ≠ [] := by
  obtain ⟨atBreak, lines⟩ := cut
  cases lines with
  | nil => exact absurd rfl h
  | cons line rest =>
    simp only [Cut.push, Cut.append]
    split
    · simp
    · by_cases hc : c = '\r' ∧ atBreak <;> simp [hc]

theorem Cut.foldr_append (text : List Char) (cut : Cut) (more : List (List Char))
    (h : cut.lines ≠ []) :
    text.foldr Cut.push (cut.append more) = (text.foldr Cut.push cut).append more ∧
      (text.foldr Cut.push cut).lines ≠ [] := by
  induction text with
  | nil => exact ⟨rfl, h⟩
  | cons c text ih =>
    simp only [List.foldr_cons]
    rw [ih.1]
    exact Cut.push_append c _ more ih.2

@[simp] theorem lines_nil : lines [] = [] := rfl

theorem lines_append_break (text rest : List Char) :
    lines (text ++ '\n' :: rest) = lines (text ++ ['\n']) ++ lines rest := by
  simp only [lines, List.foldr_append, List.foldr_cons, List.foldr_nil]
  exact congrArg Cut.lines (Cut.foldr_append text ⟨true, [[]]⟩ _ (by simp)).1

end Lox.Text
