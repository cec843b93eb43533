import Manuscript.Proofs.PatternNotation
import Manuscript.Rule.Basic
import Mathlib.Data.List.Nodup

/-!
# Literal patterns

Escaping puts a backslash before each character with a meaning of its own, one such character after
the other in the whole text. That is the same as going through the text once. The backslash must
come first: it is the only character that the replacements insert, so the later ones find in what
the earlier ones have made exactly the occurrences that the text itself had.

Read as a pattern, escaped text is one literal for each character of the text, without anything
around them, and matches the text and nothing else. This holds wherever it stands among items, as it
does in the pattern of a whole word.
-/

namespace Manuscript.Pattern

/-- How a character is written where some have a backslash before them. -/
def marked (special : List Char) (c : Char) : Text := if c ∈ special then ['\\', c] else [c]

/-- The text that escaped text stands for. -/
def unescape : Text → Text
  | [] => []
  | '\\' :: c :: rest => c :: unescape rest
  | c :: rest => c :: unescape rest

/-! ## One pass -/

/-- The replacement of one character more, which is no backslash, leaves those alone that have been
replaced before. -/
theorem escapeChar_marked {special : List Char} {next : Char} (fresh : next ∉ special)
    (notBackslash : next ≠ '\\') (text : Text) :
    escapeChar (text.flatMap (marked special)) next =
      text.flatMap (marked (special ++ [next])) := by
  rw [escapeChar, List.flatMap_assoc]
  apply List.flatMap_congr
  intro c _
  by_cases done : c ∈ special
  · have other : c ≠ next := fun same => fresh (same ▸ done)
    simp [marked, done, other, notBackslash.symm]
  · by_cases same : c = next
    · subst same
      simp [marked, done]
    · simp [marked, done, same]

/-- Replacing characters one after the other marks all of them. -/
theorem foldl_escapeChar (special later : List Char) (distinct : (special ++ later).Nodup)
    (notBackslash : '\\' ∉ later) (text : Text) :
    later.foldl escapeChar (text.flatMap (marked special)) =
      text.flatMap (marked (special ++ later)) := by
  induction later generalizing special with
  | nil => rw [List.foldl_nil, List.append_nil]
  | cons next rest inductionHypothesis =>
    have fresh : next ∉ special := by
      intro member
      exact List.disjoint_of_nodup_append distinct member List.mem_cons_self
    rw [List.mem_cons, not_or] at notBackslash
    have regrouped : special ++ [next] ++ rest = special ++ next :: rest := by simp
    rw [List.foldl_cons, escapeChar_marked fresh (Ne.symm notBackslash.1), ← regrouped]
    exact inductionHypothesis _ (by rwa [regrouped]) notBackslash.2

/-- Escaping marks the characters with a meaning of their own. The backslash is marked first, and
then it is in the text only where the later replacements do not look. -/
theorem escape_eq (text : Text) : escape text = text.flatMap (marked metaCharacters) := by
  have first : escapeChar text '\\' = text.flatMap (marked ['\\']) := by
    apply List.flatMap_congr
    intro c _
    simp [marked]
  have distinct : (['\\'] ++ metaCharacters.tail).Nodup := by decide
  have others : '\\' ∉ metaCharacters.tail := by decide
  have split : metaCharacters = ['\\'] ++ metaCharacters.tail := rfl
  rw [escape, split, List.foldl_append, List.foldl_cons, List.foldl_nil, first,
    foldl_escapeChar _ _ distinct others]

/-- Two texts are escaped one after the other. -/
theorem escape_append (front back : Text) :
    escape (front ++ back) = escape front ++ escape back := by
  rw [escape_eq, escape_eq, escape_eq, List.flatMap_append]

theorem escape_cons (c : Char) (text : Text) :
    escape (c :: text) = marked metaCharacters c ++ escape text := by
  rw [escape_eq, escape_eq, List.flatMap_cons]

/-- A character that is not marked is no backslash. -/
theorem unmarked_ne {c : Char} (unmarked : c ∉ metaCharacters) : c ≠ '\\' :=
  fun same => unmarked (same ▸ List.mem_cons_self)

/-- Escaped text can be read back by dropping the backslashes. -/
theorem unescape_escape (text : Text) : unescape (escape text) = text := by
  induction text with
  | nil => rfl
  | cons c rest inductionHypothesis =>
    rw [escape_cons, marked]
    split
    · next special =>
      rw [List.cons_append, List.singleton_append, unescape, inductionHypothesis]
    · next unmarked =>
      rw [List.singleton_append, unescape, inductionHypothesis]
      simp [unmarked_ne unmarked]

/-! ## Reading -/

/-- The token that a character of a text becomes in the pattern. -/
def token (c : Char) : Token := if c ∈ metaCharacters then .escaped c else .plain c

theorem tokens_marked (c : Char) (rest : Text) :
    tokens (marked metaCharacters c ++ rest) = (tokens rest).map (token c :: ·) := by
  unfold marked token
  split
  · next special => rfl
  · next unmarked =>
    rw [List.singleton_append, tokens]
    all_goals simp [unmarked_ne unmarked]

/-- Escaped text is one token for each character. -/
theorem tokens_escape (text : Text) : tokens (escape text) = some (text.map token) := by
  induction text with
  | nil => rfl
  | cons c rest inductionHypothesis =>
    rw [escape_cons, tokens_marked, inductionHypothesis]
    rfl

/-- The token of a character is read as the literal of that character. -/
theorem readFrom_token (here : Level) (around : List Level) (c : Char) (rest : List Token) :
    readFrom 0 here around (token c :: rest) = readFrom 0 (here.add (.literal c)) around rest := by
  unfold token
  split
  · next special =>
    have literally : metaCharacters.all fun d => escaped? d = some (.literal d) := by decide
    rw [readFrom, of_decide_eq_true (List.all_eq_true.mp literally c special)]
    rfl
  · next unmarked =>
    have alone : repetition? c rest = none := by
      unfold repetition?
      split
      case h_5 => rfl
      all_goals exact absurd (by decide) unmarked
    rw [readFrom, alone]
    all_goals
      rintro rfl
      exact absurd (by decide) unmarked

/-- The tokens of a text are read as its characters, in whatever group they stand. -/
theorem readFrom_tokens (here : Level) (around : List Level) (text : Text) (rest : List Token) :
    readFrom 0 here around (text.map token ++ rest) =
      readFrom 0 { here with items := (text.map .literal).reverse ++ here.items } around rest := by
  induction text generalizing here with
  | nil => rfl
  | cons c more inductionHypothesis =>
    rw [List.map_cons, List.cons_append, readFrom_token, inductionHypothesis]
    simp [Level.add]

/-- A pattern is read from its tokens. -/
theorem read_tokens {pattern : Text} {found : List Token} (known : tokens pattern = some found) :
    read pattern = readFrom 0 ⟨[], []⟩ [] found := by
  rw [read, known]
  rfl

/-- Escaped text is read as the literals of the text. -/
theorem read_escape (text : Text) :
    read (escape text) = some (sequence (text.map .literal)) := by
  have whole := readFrom_tokens ⟨[], []⟩ [] text []
  rw [List.append_nil] at whole
  rw [read_tokens (tokens_escape text), whole]
  simp [readFrom, Level.expression, Level.branch]

/-- Characters that have been read do not change what those behind them are. -/
theorem tokens_append {front : Text} {found : List Token} (known : tokens front = some found)
    (back : Text) : tokens (front ++ back) = (tokens back).map (found ++ ·) := by
  fun_induction tokens front generalizing found with
  | case1 =>
    cases known
    simp
  | case2 => cases known
  | case3 c rest inductionHypothesis =>
    obtain ⟨others, split, rfl⟩ := Option.map_eq_some_iff.mp known
    simp [tokens, inductionHypothesis split]
    rfl
  | case4 c rest alone protecting inductionHypothesis =>
    obtain ⟨others, split, rfl⟩ := Option.map_eq_some_iff.mp known
    have notBackslash : c ≠ '\\' := by
      rintro rfl
      cases rest with
      | nil => exact alone rfl rfl
      | cons d later => exact protecting d later rfl rfl
    rw [List.cons_append, tokens, inductionHypothesis split, Option.map_map]
    · rfl
    all_goals simp [notBackslash]

/-- The tokens of escaped text stand between those of what is before and behind it. -/
theorem tokens_between {front back : Text} {before behind : List Token}
    (frontTokens : tokens front = some before) (backTokens : tokens back = some behind)
    (text : Text) :
    tokens (front ++ escape text ++ back) = some (before ++ (text.map token ++ behind)) := by
  rw [List.append_assoc, tokens_append frontTokens, tokens_append (tokens_escape text), backTokens]
  rfl

/-- The pattern of a whole word has the literals of the text between word edges, and beside those
the edge of a line or a character that is neither a line feed nor a hyphen. -/
theorem read_wholeWord (text : Text) :
    read (wholeWord text) =
      some (sequence
        ([.group (.either (sequence [.edge .lineStart])
            (sequence [.noneOf [.single '\n', .single '-']])), .edge .word] ++
          text.map .literal ++
          [.edge .word, .group (.either (sequence [.noneOf [.single '\n', .single '-']])
            (sequence [.edge .lineEnd]))])) := by
  have front : tokens "(^|[^\\n-])\\b".toList =
      some [.plain '(', .plain '^', .plain '|', .plain '[', .plain '^', .escaped 'n', .plain '-',
        .plain ']', .plain ')', .escaped 'b'] := by decide
  have back : tokens "\\b([^\\n-]|$)".toList =
      some [.escaped 'b', .plain '(', .plain '[', .plain '^', .escaped 'n', .plain '-', .plain ']',
        .plain '|', .plain '$', .plain ')'] := by decide
  have opened (rest : List Token) :
      readFrom 0 ⟨[], []⟩ [] ([.plain '(', .plain '^', .plain '|', .plain '[', .plain '^',
        .escaped 'n', .plain '-', .plain ']', .plain ')', .escaped 'b'] ++ rest) =
      readFrom 0 ⟨[], [.edge .word, .group (.either (sequence [.edge .lineStart])
        (sequence [.noneOf [.single '\n', .single '-']]))]⟩ [] rest := rfl
  have closed (here : Level) :
      readFrom 0 here [] [.escaped 'b', .plain '(', .plain '[', .plain '^', .escaped 'n',
        .plain '-', .plain ']', .plain '|', .plain '$', .plain ')'] =
      some ((here.add (.edge .word)).add (.group (.either
        (sequence [.noneOf [.single '\n', .single '-']])
        (sequence [.edge .lineEnd])))).expression := rfl
  have split : tokens (wholeWord text) = _ := tokens_between front back text
  refine (read_tokens split).trans ((opened _).trans ?_)
  rw [readFrom_tokens, closed]
  simp [Level.expression, Level.branch, Level.add]

/-- Literals match their characters and nothing else, wherever they stand. -/
theorem matches_literals (multiline : Bool) (before text found behind : Text) :
    (sequence (text.map .literal)).Matches multiline before found behind ↔ found = text := by
  induction text generalizing before found with
  | nil => rfl
  | cons c rest inductionHypothesis =>
    simp [sequence, Expression.Matches, inductionHypothesis]

/-- A text is escaped literally. Each of the characters with a meaning of their own has one
backslash before it, and every other one is left alone; so texts can be escaped one after the other,
and each can be read back and differs from all others. As a pattern escaped text is one literal for
each character, and matches the text as a whole and no other. -/
theorem escape_literal (text : Text) :
    (escape text = text.flatMap fun c =>
      if c ∈ ['\\', '|', '(', ')', '[', ']', '{', '}', '^', '$', '*', '+', '?', '.'] then ['\\', c]
      else [c]) ∧
    (∀ more, escape (text ++ more) = escape text ++ escape more) ∧
    unescape (escape text) = text ∧
    (∀ other, escape text = escape other ↔ text = other) ∧
    read (escape text) = some (sequence (text.map .literal)) ∧
    ∀ multiline found, FullMatch multiline (escape text) found ↔ found = text := by
  refine ⟨escape_eq text, escape_append text, unescape_escape text, fun other => ⟨fun same => ?_,
    congrArg escape⟩, read_escape text, fun multiline found => ?_⟩
  · rw [← unescape_escape text, same, unescape_escape]
  · rw [FullMatch, read_escape]
    constructor
    · rintro ⟨expression, known, matched⟩
      rw [← Option.some.inj known] at matched
      exact (matches_literals multiline [] text found []).mp matched
    · intro same
      exact ⟨_, rfl, (matches_literals multiline [] text found []).mpr same⟩

end Manuscript.Pattern
