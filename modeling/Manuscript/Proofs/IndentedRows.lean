import Manuscript.Proofs.BlockRows
import Manuscript.Proofs.Numerals
import Mathlib.Data.List.TakeWhile

/-!
# The rows of an indented block

A line of an indented block becomes a row that begins with as much horizontal space as the line
begins with spaces, and the rest of the line follows behind one space. The width is a numeral and
`em` stands behind it, so it ends where the digits do, whatever the rest of the line is.

Without a macro list the rest stands there as it is. Then the block can be read back: its lines,
each with its indentation apart, are determined by the text of the block.
-/

namespace Manuscript.Alignment

/-- A line is its indentation and a rest that begins with no further space. -/
theorem indentation_split (line : Text) :
    line = List.replicate (indentation line) ' ' ++ line.dropWhile (· == ' ') ∧
      (line.dropWhile (· == ' ')).head? ≠ some ' ' := by
  have spaces : line.takeWhile (· == ' ') = List.replicate (indentation line) ' ' := by
    rw [indentation, List.eq_replicate_iff]
    refine ⟨rfl, fun c member => ?_⟩
    have space : (c == ' ') = true := List.mem_takeWhile_imp (p := (· == ' ')) member
    exact beq_iff_eq.mp space
  refine ⟨?_, ?_⟩
  · rw [← spaces, List.takeWhile_append_dropWhile]
  · intro first
    have outside := List.head?_dropWhile_not (· == ' ') line
    rw [first] at outside
    cases outside

/-- A row is the space for the indentation, and the rest of the line with the macro list applied
to it. -/
theorem indentedLine_eq (rules : List Rule) (line : Text) :
    indentedLine rules line =
      "&\\hspace\x7b".toList ++ (Text.numeral (indentation line) ++
        ("em\x7d ".toList ++ applyRules rules (line.dropWhile (· == ' ')))) := by
  simp [indentedLine, Latex.command, Latex.Argument.toLatex]

/-- An indented block, row by row. -/
theorem indentedBlock_eq (rules : List Rule) (text : Text) :
    indentedBlock rules text =
      Text.unlines ["\\small\\begin\x7balign*\x7d".toList,
        Text.unlines ((Text.lines text).mapIdx fun number line =>
          "&\\hspace\x7b".toList ++ (Text.numeral (indentation line) ++
            ("em\x7d ".toList ++ applyRules rules (line.dropWhile (· == ' ')))) ++
          if number + 1 < (Text.lines text).length then " \\\\".toList else []),
        "\\end\x7balign*\x7d\\normalsize".toList] := by
  simp only [indentedBlock, addEndings_map, indentedLine_eq]

/-- Read a row: the width of its space, and what stands behind the space. -/
def readRow (row : Text) : Nat × Text :=
  let width := row.drop "&\\hspace\x7b".toList.length
  (Text.valueOfDigits (width.takeWhile Text.isDigit),
    (width.dropWhile Text.isDigit).drop "em\x7d ".toList.length)

/-- Read an indented block: the indentation and the rest of each line. -/
def readIndented (block : Text) : List (Nat × Text) := (blockRows block).map readRow

/-- The digits of the width end at the unit. -/
theorem readRow_eq (width : Nat) (rest : Text) :
    readRow ("&\\hspace\x7b".toList ++ (Text.numeral width ++ ("em\x7d ".toList ++ rest))) =
      (width, rest) := by
  have digits : ∀ c ∈ Text.numeral width, Text.isDigit c = true :=
    fun _ member => Text.isDigit_numeral member
  have unit : ("em\x7d ".toList ++ rest).takeWhile Text.isDigit = [] ∧
      ("em\x7d ".toList ++ rest).dropWhile Text.isDigit = "em\x7d ".toList ++ rest := ⟨rfl, rfl⟩
  rw [readRow, List.drop_left, List.takeWhile_append_of_pos digits,
    List.dropWhile_append_of_pos digits, unit.1, unit.2, List.append_nil, List.drop_left,
    Text.valueOfDigits_numeral]

/-- A row holds a line feed only where the rest of its line does. -/
theorem indentedLine_plain (line : Text) (plain : '\n' ∉ line) : '\n' ∉ indentedLine [] line := by
  have rest : '\n' ∉ line.dropWhile (· == ' ') :=
    fun member => plain ((List.dropWhile_suffix _).subset member)
  have digits : '\n' ∉ Text.numeral (indentation line) :=
    fun member => absurd (Text.isDigit_numeral member) (by decide)
  rw [indentedLine_eq]
  simp [applyRules, rest, digits]

/-- The lines of a text, each divided into its indentation and its rest, can be read from its
indented block. -/
theorem readIndented_eq (text : Text) :
    readIndented (indentedBlock [] text) =
      (Text.lines text).map fun line => (indentation line, line.dropWhile (· == ' ')) := by
  have rows : blockRows (indentedBlock [] text) = (Text.lines text).map (indentedLine []) := by
    apply blockRows_block (by decide) (by decide)
    · intro row member
      obtain ⟨line, known, rfl⟩ := List.mem_map.mp member
      exact indentedLine_plain line (Text.lines_no_feed text line known)
    · intro row member
      obtain ⟨line, -, rfl⟩ := List.mem_map.mp member
      exact List.cons_ne_nil _ _
  rw [readIndented, rows, List.map_map]
  apply List.map_congr_left
  intro line _
  rw [Function.comp_apply, indentedLine_eq, readRow_eq]
  rfl

/-- A line may look like a row, or like the end of one. -/
example :
    readIndented (indentedBlock [] "   a \\\\\n\n\t&\\hspace\x7b3em\x7d b\n  ".toList) =
      [(3, "a \\\\".toList), (0, []), (0, "\t&\\hspace\x7b3em\x7d b".toList), (2, [])] := by
  decide

/-- An indented block has a row for each line of the text, in their order: a space as wide as the
indentation of the line, and behind it the rest of the line with the macro list applied to it. All
rows but the last end with a double backslash. Without a macro list the lines can be read from the
block, each as its indentation and its rest, so texts have the same block only where they have the
same lines. -/
theorem indentedBlock_rows (text : Text) :
    (∀ line : Text, line = List.replicate (indentation line) ' ' ++ line.dropWhile (· == ' ') ∧
      (line.dropWhile (· == ' ')).head? ≠ some ' ') ∧
    (∀ rules, indentedBlock rules text =
      Text.unlines ["\\small\\begin\x7balign*\x7d".toList,
        Text.unlines ((Text.lines text).mapIdx fun number line =>
          "&\\hspace\x7b".toList ++ (Text.numeral (indentation line) ++
            ("em\x7d ".toList ++ applyRules rules (line.dropWhile (· == ' ')))) ++
          if number + 1 < (Text.lines text).length then " \\\\".toList else []),
        "\\end\x7balign*\x7d\\normalsize".toList]) ∧
    readIndented (indentedBlock [] text) =
      (Text.lines text).map (fun line => (indentation line, line.dropWhile (· == ' '))) ∧
    (readIndented (indentedBlock [] text)).map (fun row => List.replicate row.1 ' ' ++ row.2) =
      Text.lines text ∧
    ∀ other,
      indentedBlock [] text = indentedBlock [] other ↔ Text.lines text = Text.lines other := by
  have restored (read : Text) :
      (readIndented (indentedBlock [] read)).map (fun row => List.replicate row.1 ' ' ++ row.2) =
        Text.lines read := by
    rw [readIndented_eq, List.map_map]
    exact List.map_id'' (fun line => (indentation_split line).1.symm) _
  refine ⟨indentation_split, fun rules => indentedBlock_eq rules text, readIndented_eq text,
    restored text, fun other => ⟨fun same => ?_, fun same => ?_⟩⟩
  · rw [← restored text, same, restored other]
  · rw [indentedBlock_eq, indentedBlock_eq, same]

end Manuscript.Alignment
