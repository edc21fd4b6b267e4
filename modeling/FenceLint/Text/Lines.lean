import FenceLint.Text.Pieces

/-!
Two ways to cut a text into lines. `segments` cuts at every line feed and keeps an empty last
piece; a scan takes a carriage return off the end of each with `dropReturn`. `rows` is for
printing: a final line feed ends the last line instead of opening an empty one, and a carriage
return belongs to the line ending only where a line feed follows it.
-/

set_option autoImplicit false

namespace FenceLint.Text

/-- The pieces of a text between its line feeds. -/
def segments (cs : List Char) : List (List Char) := pieces '\n' cs

/-- Lines joined by line feeds. -/
def joinLines (lines : List (List Char)) : List Char := glue '\n' lines

/-- Takes one carriage return off the end. -/
def dropReturn (line : List Char) : List Char :=
  if line.getLast? = some '\r' then line.dropLast else line

/-- The lines of a text as they are printed, one below the other. -/
def rows (cs : List Char) : List (List Char) :=
  let all := segments cs
  let ended := all.dropLast.map dropReturn
  match all.getLast? with
  | none => ended
  | some last => if last = [] then ended else ended ++ [last]

end FenceLint.Text
