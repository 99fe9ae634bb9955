import LineAsm.Text.Blank

/-!
# Lines of a text

A line ends at a line feed; one carriage return before the line feed belongs to
the line end.  The text after the last line feed is a line only when it is not
empty, and a carriage return at its end is kept, because no line feed follows it.
-/

set_option autoImplicit false

namespace LineAsm.Text

/-- Drop one carriage return from the end of a line. -/
def dropReturn (line : List Char) : List Char :=
  if line.getLast? = some '\r' then line.dropLast else line

/-- The lines of a text, as lists of characters. -/
def linesOf (text : List Char) : List (List Char) :=
  let pieces := fields (· == '\n') text
  let terminated := pieces.dropLast.map dropReturn
  match pieces.getLast? with
  | none => terminated
  | some [] => terminated
  | some unterminated => terminated ++ [unterminated]

/-- The lines of a text. -/
def lines (text : String) : List String :=
  (linesOf text.toList).map String.ofList

/-- No line holds a line feed. -/
theorem not_lineFeed_of_mem_linesOf {text line : List Char} (found : line ∈ linesOf text) :
    '\n' ∉ line := by
  have noFeed : ∀ piece ∈ fields (· == '\n') text, '\n' ∉ piece := fun piece mem feed => by
    have := not_mem_of_mem_fields (· == '\n') mem '\n' feed
    simp at this
  have terminated : ∀ piece ∈ (fields (· == '\n') text).dropLast.map dropReturn,
      '\n' ∉ piece := fun piece mem feed => by
    obtain ⟨whole, wholeMem, same⟩ := List.mem_map.mp mem
    subst same
    refine noFeed whole (List.dropLast_subset _ wholeMem) ?_
    unfold dropReturn at feed
    split at feed
    · exact List.dropLast_subset _ feed
    · exact feed
  unfold linesOf at found
  simp only at found
  split at found
  · exact terminated line found
  · exact terminated line found
  · rename_i last _ lastIs
    rcases List.mem_append.mp found with early | late
    · exact terminated line early
    · rw [List.mem_singleton] at late
      subst late
      exact noFeed _ (List.mem_of_getLast? lastIs)

end LineAsm.Text
