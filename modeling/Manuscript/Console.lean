import Manuscript.Text.Basic

/-!
# The console

The console is handed lists of items to print: text with markup in it, text in which
brackets mean nothing, a panel with a title and a border, or a table.
-/

namespace Manuscript

/-- How the cells of a column are placed. -/
inductive Justification where
  | left
  | right
deriving DecidableEq, Repr

/-- Text with or without markup. -/
inductive Caption where
  | markup (text : Text)
  | plain (text : Text)
deriving DecidableEq, Repr

/-- A column of a printed table. -/
structure Column where
  header : Caption
  justification : Justification
deriving DecidableEq, Repr

/-- An item to print. -/
inductive Item where
  | caption (caption : Caption)
  | panel (content title : Caption) (border : Text)
  | table (title : Caption) (columns : List Column) (rows : List (List Caption))
deriving DecidableEq, Repr

/-- A text with markup. -/
def Item.markup (text : String) : Item := .caption (.markup text.toList)

/-- A text without markup. -/
def Item.plain (text : String) : Item := .caption (.plain text.toList)

end Manuscript
