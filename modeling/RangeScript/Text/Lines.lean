/-!
# Lines

A line ends at a line feed, and a carriage return right before the line feed belongs to the line's
end. What follows the last line feed is a line of its own unless it is empty.
-/

namespace RangeScript.Text

variable {α : Type} [BEq α]

/-- The stretches between separators: the first one, and those after it. -/
def stretches (separator : α) (xs : List α) : List α × List (List α) :=
  xs.foldr (fun x (first, more) =>
    if x == separator then ([], first :: more) else (x :: first, more)) ([], [])

/-- A line without the carriage return that belongs to its end. -/
def dropReturn (cr : α) (line : List α) : List α :=
  match line.getLast? with
  | some x => if x == cr then line.dropLast else line
  | none => line

/-- The lines among stretches of which each but the last was ended by a line feed. -/
def endedLines (cr : α) (first : List α) : List (List α) → List (List α)
  | [] => if first.isEmpty then [] else [first]
  | next :: more => dropReturn cr first :: endedLines cr next more

/-- The lines of `xs`, for the line feed and the carriage return of its alphabet. -/
def splitLines (lf cr : α) (xs : List α) : List (List α) :=
  let (first, more) := stretches lf xs
  endedLines cr first more

/-- The lines of a text. -/
def lines (s : String) : List String := (splitLines '\n' '\r' s.toList).map String.ofList

end RangeScript.Text
