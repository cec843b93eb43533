import Manuscript.Latex
import Mathlib.Tactic.FinCases

/-!
# Brace groups

In LaTeX a backslash protects the character behind it, and the other braces nest. So a group ends
at the brace that closes it whatever it holds, if the text in it is balanced: every brace in it has
its partner in it, and no backslash is left over at its end that would protect the closing brace.

Escaped text is balanced. A character with a meaning of its own is written behind a backslash that
protects it, or as a command for the symbol, whose two braces are partners. No two characters are
written alike, and none like the beginning of another, so the text can be read back; and with it the
name and the arguments of a command, each argument from its own group.
-/

namespace Manuscript.Latex

/-- How many groups are open behind a text with some open before it. There is no number where a
brace closes a group that is not open, or a backslash at the end protects nothing. -/
def depthAfter : Nat → Text → Option Nat
  | depth, [] => some depth
  | _, ['\\'] => none
  | depth, '\\' :: _ :: rest => depthAfter depth rest
  | depth, '{' :: rest => depthAfter (depth + 1) rest
  | 0, '}' :: _ => none
  | depth + 1, '}' :: rest => depthAfter depth rest
  | depth, _ :: rest => depthAfter depth rest

/-- A text whose braces are partners of each other. -/
def Balanced (text : Text) : Prop := depthAfter 0 text = some 0

instance (text : Text) : Decidable (Balanced text) := inferInstanceAs (Decidable (_ = _))

/-- The characters that are neither protected by a backslash nor protect one. -/
def exposed : Text → Text
  | [] => []
  | '\\' :: _ :: rest => exposed rest
  | c :: rest => c :: exposed rest

/-- What a group holds, given the text behind its opening brace and the groups that are open
within it. -/
def readGroup : Nat → Text → Option Text
  | _, [] => none
  | _, ['\\'] => none
  | depth, '\\' :: c :: rest => (readGroup depth rest).map ('\\' :: c :: ·)
  | depth, '{' :: rest => (readGroup (depth + 1) rest).map ('{' :: ·)
  | 0, '}' :: _ => some []
  | depth + 1, '}' :: rest => (readGroup depth rest).map ('}' :: ·)
  | depth, c :: rest => (readGroup depth rest).map (c :: ·)

/-- What the groups of a text hold that is nothing but groups. `covered` counts the characters
that still belong to the group before them. -/
def readGroups : Nat → Text → Option (List Text)
  | _, [] => some []
  | covered + 1, _ :: rest => readGroups covered rest
  | 0, '{' :: rest => do
    let group ← readGroup 0 rest
    let others ← readGroups (group.length + 1) rest
    return group :: others
  | 0, _ :: _ => none

/-- The name of a command, which ends at the first brace that opens a group, and what its groups
hold. -/
def readCommand : Text → Option (Text × List Text)
  | '\\' :: rest => do
    let groups ← readGroups 0 (rest.dropWhile (· ≠ '{'))
    return (rest.takeWhile (· ≠ '{'), groups)
  | _ => none

/-- What stands behind the backslash of a command for a symbol, and the symbol. -/
def symbols : List (Text × Char) :=
  [("textbackslash\x7b\x7d".toList, '\\'), ("textasciitilde\x7b\x7d".toList, '~'),
    ("textasciicircum\x7b\x7d".toList, '^')]

/-- Read escaped text. A backslash begins a command for a symbol, or stands before the character
that is meant. `covered` counts the characters that have been read with their backslash. -/
def unescapeFrom : Nat → Text → Text
  | _, [] => []
  | covered + 1, _ :: rest => unescapeFrom covered rest
  | 0, '\\' :: rest =>
    match symbols.find? fun symbol => symbol.1.isPrefixOf rest with
    | some (written, c) => c :: unescapeFrom written.length rest
    | none => rest.take 1 ++ unescapeFrom 1 rest
  | 0, c :: rest => c :: unescapeFrom 0 rest

/-- The text that escaped text stands for. -/
def unescape (text : Text) : Text := unescapeFrom 0 text

/-! ## Escaped text -/

/-- A character is written as a command, behind a backslash, or as it is. -/
theorem escapeChar_cases (c : Char) :
    (∃ written, (written, c) ∈ symbols ∧ escapeChar c = '\\' :: written) ∨
      (c ∈ ['#', '$', '%', '&', '_', '{', '}'] ∧ escapeChar c = ['\\', c]) ∨
      (c ∉ ['\\', '#', '$', '%', '&', '_', '{', '}', '~', '^'] ∧ escapeChar c = [c]) := by
  unfold escapeChar
  split
  · exact .inl ⟨_, .head _, rfl⟩
  · exact .inl ⟨_, .tail _ (.head _), rfl⟩
  · exact .inl ⟨_, .tail _ (.tail _ (.head _)), rfl⟩
  case h_11 => exact .inr (.inr ⟨by simp_all, rfl⟩)
  all_goals exact .inr (.inl ⟨by decide, rfl⟩)

/-- Escaping goes one character at a time. -/
theorem escape_append (front back : Text) : escape (front ++ back) = escape front ++ escape back :=
  List.flatMap_append

/-- What is written for a character is read as that character. -/
theorem unescape_escapeChar (c : Char) (rest : Text) :
    unescape (escapeChar c ++ rest) = c :: unescape rest := by
  rcases escapeChar_cases c with ⟨written, known, shape⟩ | ⟨known, shape⟩ | ⟨plain, shape⟩
  · rw [shape]
    fin_cases known <;> rfl
  · rw [shape]
    fin_cases known <;> rfl
  · have other : c ≠ '\\' := fun same => plain (same ▸ List.mem_cons_self)
    rw [shape, List.singleton_append, unescape, unescapeFrom, unescape]
    exact other

theorem unescape_escape (text : Text) : unescape (escape text) = text := by
  induction text with
  | nil => rfl
  | cons c rest inductionHypothesis =>
    rw [escape, List.flatMap_cons, unescape_escapeChar, ← escape, inductionHypothesis]

/-- What is written for a character leaves open the groups that were open before it. -/
theorem depthAfter_escapeChar (depth : Nat) (c : Char) (rest : Text) :
    depthAfter depth (escapeChar c ++ rest) = depthAfter depth rest := by
  rcases escapeChar_cases c with ⟨written, known, shape⟩ | ⟨known, shape⟩ | ⟨plain, shape⟩
  · rw [shape]
    fin_cases known <;> rfl
  · rw [shape]
    rfl
  · simp only [List.mem_cons, not_or] at plain
    rw [shape, List.singleton_append, depthAfter]
    all_goals simp [plain]

theorem depthAfter_escape (depth : Nat) (text : Text) :
    depthAfter depth (escape text) = some depth := by
  induction text with
  | nil => rfl
  | cons c rest inductionHypothesis =>
    rw [escape, List.flatMap_cons, depthAfter_escapeChar, ← escape, inductionHypothesis]

/-- Escaped text is balanced. -/
theorem balanced_escape (text : Text) : Balanced (escape text) := depthAfter_escape 0 text

theorem balanced_escaped (arguments : List Text) :
    ∀ group ∈ arguments.map escape, Balanced group := by
  intro group member
  obtain ⟨text, -, rfl⟩ := List.mem_map.mp member
  exact balanced_escape text

/-- What is written for a character protects nothing behind it. -/
theorem exposed_escapeChar (c : Char) (rest : Text) :
    exposed (escapeChar c ++ rest) = exposed (escapeChar c) ++ exposed rest := by
  rcases escapeChar_cases c with ⟨written, known, shape⟩ | ⟨known, shape⟩ | ⟨plain, shape⟩
  · rw [shape]
    fin_cases known <;> rfl
  · rw [shape]
    rfl
  · simp only [List.mem_cons, not_or] at plain
    rw [shape, List.singleton_append, exposed, exposed]
    all_goals simp [plain, exposed]

theorem exposed_escape (text : Text) :
    exposed (escape text) = text.flatMap fun c => exposed (escapeChar c) := by
  induction text with
  | nil => rfl
  | cons c rest inductionHypothesis =>
    rw [escape, List.flatMap_cons, exposed_escapeChar, ← escape, inductionHypothesis,
      List.flatMap_cons]

/-- The special characters of LaTeX that are neither backslash nor brace. -/
def specials : Text := ['#', '$', '%', '&', '_', '~', '^']

/-- No special character is left without protection. -/
theorem exposed_not_special {text : Text} {c : Char} (member : c ∈ exposed (escape text)) :
    c ∉ specials := by
  rw [exposed_escape, List.mem_flatMap] at member
  obtain ⟨d, -, inside⟩ := member
  rcases escapeChar_cases d with ⟨written, known, shape⟩ | ⟨-, shape⟩ | ⟨plain, shape⟩
  · rw [shape] at inside
    have letters : ∀ symbol ∈ symbols, (exposed ('\\' :: symbol.1)).all (· ∉ specials) := by decide
    exact of_decide_eq_true (List.all_eq_true.mp (letters _ known) c inside)
  · rw [shape] at inside
    cases inside
  · have single : exposed [d] = [d] := by simp [exposed]
    rw [shape, single, List.mem_singleton] at inside
    subst inside
    simp only [List.mem_cons, not_or] at plain
    simp [specials, plain]

/-! ## Reading groups -/

/-- Around a text that is balanced but for the groups that are open, a group is read up to the brace
that closes it. -/
theorem readGroup_closed {depth : Nat} {content : Text} (closed : depthAfter depth content = some 0)
    (rest : Text) : readGroup depth (content ++ '}' :: rest) = some content := by
  fun_induction depthAfter depth content with
  | case1 depth =>
    cases closed
    rfl
  | case2 => cases closed
  | case3 depth c more inductionHypothesis =>
    simp [readGroup, inductionHypothesis closed]
  | case4 depth more inductionHypothesis =>
    simp [readGroup, inductionHypothesis closed]
  | case5 => cases closed
  | case6 depth more inductionHypothesis =>
    simp [readGroup, inductionHypothesis closed]
  | case7 depth c more alone protecting opening closing closingInner inductionHypothesis =>
    have notBackslash : c ≠ '\\' := by
      rintro rfl
      cases more with
      | nil => exact alone rfl rfl
      | cons d later => exact protecting d later rfl rfl
    have notOpening : c ≠ '{' := opening
    have notClosing : c ≠ '}' := by
      rintro rfl
      cases depth with
      | zero => exact closing rfl rfl
      | succ inner => exact closingInner inner rfl rfl
    rw [List.cons_append, readGroup, inductionHypothesis closed, Option.map_some]
    all_goals simp [notBackslash, notOpening, notClosing]

/-- Characters that belong to a group are passed over. -/
theorem readGroups_covered (covered : Nat) (text : Text) :
    readGroups covered text = readGroups 0 (text.drop covered) := by
  induction covered generalizing text with
  | zero => rfl
  | succ covered inductionHypothesis =>
    cases text with
    | nil => rfl
    | cons c rest => exact inductionHypothesis rest

/-- A group with its braces. -/
def braced (group : Text) : Text := '{' :: group ++ ['}']

/-- Balanced groups behind each other are read as they are. -/
theorem readGroups_braced (groups : List Text) (balanced : ∀ group ∈ groups, Balanced group) :
    readGroups 0 (groups.flatMap braced) = some groups := by
  induction groups with
  | nil => rfl
  | cons group rest inductionHypothesis =>
    obtain ⟨here, others⟩ := List.forall_mem_cons.mp balanced
    have written : (group :: rest).flatMap braced =
        '{' :: (group ++ '}' :: rest.flatMap braced) := by
      simp [braced]
    have behind : (group ++ '}' :: rest.flatMap braced).drop (group.length + 1) =
        rest.flatMap braced := by
      simp
    rw [written, readGroups, readGroup_closed here]
    simp only [Option.bind_eq_bind, Option.bind_some]
    rw [readGroups_covered, behind, inductionHypothesis others]
    rfl

/-- A name without an opening brace is read up to the first group. -/
theorem readCommand_braced {name : Text} (plain : '{' ∉ name) {groups : List Text}
    (balanced : ∀ group ∈ groups, Balanced group) :
    readCommand ('\\' :: name ++ groups.flatMap braced) = some (name, groups) := by
  have inName : ∀ c ∈ name, decide (c ≠ '{') = true := fun c member =>
    decide_eq_true fun same => plain (same ▸ member)
  have ends : (groups.flatMap braced).takeWhile (· ≠ '{') = [] ∧
      (groups.flatMap braced).dropWhile (· ≠ '{') = groups.flatMap braced := by
    cases groups <;> exact ⟨rfl, rfl⟩
  rw [List.cons_append, readCommand, List.takeWhile_append_of_pos inName,
    List.dropWhile_append_of_pos inName, ends.1, ends.2, readGroups_braced groups balanced,
    List.append_nil]
  rfl

/-- A command has each of its plain arguments, escaped, in a group. -/
theorem command_plain (name : Text) (arguments : List Text) :
    command name (arguments.map .plain) =
      '\\' :: name ++ (arguments.map escape).flatMap braced := by
  simp [command, List.flatMap_map, Argument.toLatex, braced]

/-- The name and the escaped arguments of a command can be read from it. -/
theorem readCommand_command {name : Text} (plain : '{' ∉ name) (arguments : List Text) :
    readCommand (command name (arguments.map .plain)) = some (name, arguments.map escape) := by
  rw [command_plain]
  exact readCommand_braced plain (balanced_escaped arguments)

/-- The arguments of a command with plain arguments are kept apart, whatever characters they hold.
Behind the name, which must not hold an opening brace, there is a group for each argument. It is
balanced, so it ends at its own closing brace, and without its escapes it is the argument. So
neither commands nor escaped texts are alike where they were made of different ones. Texts are
escaped one after the other; what comes out is balanced, and no special character is left without
a backslash before it. -/
theorem command_groups :
    (∀ (name : Text) (arguments : List Text), '{' ∉ name →
      (∃ groups, readCommand (command name (arguments.map .plain)) = some (name, groups) ∧
        command name (arguments.map .plain) =
          '\\' :: name ++ groups.flatMap (fun group => '{' :: group ++ ['}']) ∧
        groups.length = arguments.length ∧ (∀ group ∈ groups, Balanced group) ∧
        groups.map unescape = arguments) ∧
      ∀ (other : Text) (others : List Text), '{' ∉ other →
        (command name (arguments.map .plain) = command other (others.map .plain) ↔
          name = other ∧ arguments = others)) ∧
    ∀ text : Text, unescape (escape text) = text ∧
      (∀ other, escape text = escape other ↔ text = other) ∧
      (∀ more, escape (text ++ more) = escape text ++ escape more) ∧
      (∀ c ∈ exposed (escape text), c ∉ ['#', '$', '%', '&', '_', '~', '^']) ∧
      Balanced (escape text) := by
  have restored (arguments : List Text) : (arguments.map escape).map unescape = arguments := by
    rw [List.map_map]
    exact List.map_id'' unescape_escape arguments
  refine ⟨fun name arguments plain => ⟨?_, fun other others plainOther => ?_⟩, fun text => ?_⟩
  · exact ⟨arguments.map escape, readCommand_command plain arguments, command_plain name arguments,
      List.length_map _, balanced_escaped arguments, restored arguments⟩
  · constructor
    · intro same
      have read := readCommand_command plain arguments
      rw [same, readCommand_command plainOther others] at read
      obtain ⟨rfl, groups⟩ := Prod.mk.inj (Option.some.inj read)
      rw [← restored arguments, ← groups, restored others]
      exact ⟨rfl, rfl⟩
    · rintro ⟨rfl, rfl⟩
      rfl
  · refine ⟨unescape_escape text, fun other => ⟨fun same => ?_, congrArg escape⟩,
      escape_append text, fun c member => exposed_not_special member, balanced_escape text⟩
    rw [← unescape_escape text, same, unescape_escape]

/-- Braces that look like the border between two arguments, a backslash at the end of one, and an
argument that is empty. -/
def bordering : List Text := ["a\x7d\x7b".toList, "50%~\\".toList, []]

/-- The borders are found all the same. -/
theorem bordering_groups :
    '{' ∉ "frac".toList ∧
      command "frac".toList (bordering.map .plain) =
        "\\frac\x7ba\\\x7d\\\x7b\x7d\x7b50\\%\\textasciitilde\x7b\x7d".toList ++
          "\\textbackslash\x7b\x7d\x7d\x7b\x7d".toList ∧
      (∃ groups, readCommand (command "frac".toList (bordering.map .plain)) =
        some ("frac".toList, groups) ∧ groups.map unescape = bordering) ∧
      command "frac".toList (bordering.map .plain) ≠
        command "frac".toList ([bordering.flatten].map .plain) := by
  obtain ⟨groups, read, -, -, -, restored⟩ :=
    (command_groups.1 "frac".toList bordering (by decide)).1
  have apart := (command_groups.1 "frac".toList bordering (by decide)).2 "frac".toList
    [bordering.flatten] (by decide)
  exact ⟨by decide, by decide, ⟨groups, read, restored⟩,
    fun same => absurd (apart.mp same).2 (by decide)⟩

end Manuscript.Latex
