import CssColor.Keyword.Table
import CssColor.Text.Case

/-!
# Color keywords

The color of a keyword, and the keyword of a color. Several keywords may share a color; its keyword
is the first of them in the table.
-/

namespace CssColor.Keyword

/-- The color of a keyword, which is written in lower case. -/
def color? (name : String) : Option String := table.lookup name

/-- An index after one more entry of its table: a value that it knows keeps its name. -/
def register (index : List (String × String)) (entry : String × String) :
    List (String × String) :=
  if (index.lookup entry.2).isSome then index else index ++ [(entry.2, entry.1)]

/-- The values of a table, each with the first name that carries it, in order of first
occurrence. -/
def firstNames (entries : List (String × String)) : List (String × String) :=
  entries.foldl register []

/-- The colors of the keyword table, each with its first keyword. -/
def index : List (String × String) := firstNames table

/-- The first keyword with the given color, in either case. -/
def ofColor? (color : String) : Option String := index.lookup (Text.lower color)

end CssColor.Keyword
