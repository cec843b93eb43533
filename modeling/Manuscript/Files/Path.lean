import Manuscript.Text.Basic

/-!
# Paths

A path is its root and its parts. Empty parts and single dots are dropped when a path is
read; double dots stay, because what they lead to is known only in a store. Two slashes at
the beginning are a root of their own; one slash and three or more are the same root. The
path without root and parts is written as a dot.

So a part holds something, but no slash. Every path carries the proof that its parts are
such names, and putting a name behind a path is putting one part behind its parts.
-/

namespace Manuscript

namespace Path

/-- Where a path starts: in the working directory, or at a root. -/
inductive Root where
  | relative
  | slash
  | twoSlashes
deriving DecidableEq, Repr

/-- How the root of a path is written. -/
def Root.toText : Root → Text
  | .relative => []
  | .slash => ['/']
  | .twoSlashes => ['/', '/']

/-- The root that a text begins with. -/
def Root.ofText (text : Text) : Root :=
  match text with
  | '/' :: '/' :: '/' :: _ => .slash
  | '/' :: '/' :: _ => .twoSlashes
  | '/' :: _ => .slash
  | _ => .relative

/-- A text that can be a part of a path. -/
structure IsPart (part : Text) : Prop where
  nonempty : part ≠ []
  noDot : part ≠ ['.']
  noSlash : '/' ∉ part

end Path

/-- A path. -/
structure Path where
  root : Path.Root
  parts : List Text
  proper : ∀ part ∈ parts, Path.IsPart part
deriving DecidableEq, Repr

namespace Path

/-- What is kept of the pieces between slashes can be a part of a path. -/
theorem isPart_of_piece (text : Text) : ∀ part ∈
    (text.splitOn '/').filter fun piece => !piece.isEmpty && piece != ['.'], IsPart part := by
  intro part member
  obtain ⟨piece, kept⟩ := List.mem_filter.mp member
  simp only [Bool.and_eq_true, Bool.not_eq_true', List.isEmpty_eq_false_iff, bne_iff_ne] at kept
  refine ⟨kept.1, kept.2, fun slash => ?_⟩
  exact absurd (Text.splitOnP_uncut _ text part piece '/' slash) (by decide)

/-- Read a path. -/
def ofText (text : Text) : Path where
  root := .ofText text
  parts := (text.splitOn '/').filter fun piece => !piece.isEmpty && piece != ['.']
  proper := isPart_of_piece text

/-- Write a path. -/
def toText (path : Path) : Text :=
  let joined := path.root.toText ++ Text.joinWith ['/'] path.parts
  if joined.isEmpty then ['.'] else joined

instance : ToString Path := ⟨fun path => String.ofList path.toText⟩

/-- A path that starts at a root. -/
def isAbsolute (path : Path) : Bool := path.root != .relative

/-- Follow one path after another; an absolute path forgets what is before it. -/
def join (first second : Path) : Path :=
  if second.isAbsolute then second
  else
    { root := first.root
      parts := first.parts ++ second.parts
      proper := List.forall_mem_append.mpr ⟨first.proper, second.proper⟩ }

/-- The beginning of a path with a number of its parts. -/
def leading (path : Path) (count : Nat) : Path where
  root := path.root
  parts := path.parts.take count
  proper part member := path.proper part (List.mem_of_mem_take member)

/-- The last part of a path, and nothing where it has no parts. -/
def name (path : Path) : Text := path.parts.getLast?.getD []

/-- The path of a file of a name in the directory of a path. -/
def child (path : Path) (name : Text) : Path := path.join (ofText name)

/-- The last part of a file name from its last dot on. A dot at either end of the name
begins no suffix. -/
def suffix (path : Path) : Text :=
  let reversed := path.name.reverse
  let behindDot := reversed.takeWhile (· != '.')
  match reversed.drop behindDot.length with
  | _ :: _ :: _ => if behindDot.isEmpty then [] else '.' :: behindDot.reverse
  | _ => []

@[simp] theorem leading_root (path : Path) (count : Nat) :
    (path.leading count).root = path.root := rfl

@[simp] theorem leading_parts (path : Path) (count : Nat) :
    (path.leading count).parts = path.parts.take count := rfl

/-- The beginning of a beginning is a beginning. -/
theorem leading_leading (path : Path) (count fewer : Nat) :
    (path.leading count).leading fewer = path.leading (min fewer count) := by
  simp [leading, List.take_take]

/-- With all of its parts a path is itself. -/
theorem leading_length (path : Path) : path.leading path.parts.length = path := by
  simp [leading]

/-- The name of a path holds no slash. -/
theorem name_noSlash (path : Path) : '/' ∉ path.name := by
  unfold name
  cases last : path.parts.getLast? with
  | none => exact List.not_mem_nil
  | some part => exact (path.proper part (List.mem_of_getLast? last)).noSlash

/-- A name with an extension can be a part of a path. -/
theorem IsPart.extended {name extension : Text} (whole : '/' ∉ name) (plain : '/' ∉ extension)
    (long : 2 ≤ extension.length) : IsPart (name ++ extension) := by
  refine ⟨fun empty => ?_, fun dot => ?_, by simp [whole, plain]⟩
  · have length := congrArg List.length empty
    simp only [List.length_append, List.length_nil] at length
    omega
  · have length := congrArg List.length dot
    simp only [List.length_append, List.length_cons, List.length_nil] at length
    omega

/-- A path that goes one name beyond another one. -/
structure Beyond (path : Path) (name : Text) (longer : Path) : Prop where
  root : longer.root = path.root
  parts : longer.parts = path.parts ++ [name]

/-- Each part of a path goes beyond those before it. -/
theorem beyond_leading (path : Path) {count : Nat} (more : count < path.parts.length) :
    Beyond (path.leading count) path.parts[count] (path.leading (count + 1)) :=
  ⟨rfl, List.take_succ_eq_append_getElem more⟩

/-- A name behind a path is one part more. -/
theorem beyond_child (path : Path) {name : Text} (proper : IsPart name) :
    Beyond path name (path.child name) := by
  have relative : Root.ofText name = .relative := by
    unfold Root.ofText
    split
    case h_4 => rfl
    all_goals exact absurd List.mem_cons_self proper.noSlash
  have single : (ofText name).parts = [name] := by
    simp [ofText, List.splitOn_eq_singleton proper.noSlash, proper.nonempty, proper.noDot]
  have shape : path.child name = _ := if_neg (by simp [isAbsolute, ofText, relative])
  rw [shape]
  exact ⟨rfl, congrArg (path.parts ++ ·) single⟩

end Path

end Manuscript
