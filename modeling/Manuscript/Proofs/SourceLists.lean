import Manuscript.Proofs.Division
import Manuscript.Proofs.Outcome
import Manuscript.Proofs.RowCells

/-!
# Lists of sources

The tables of a list of sources are loaded all or not at all. If they can be read, the macro list
is made of their rules in the order of the sources, and so the rules of a longer list are those of
its beginning and then those of the rest. If they cannot, the first source whose table cannot be
read is the reason.

A source with a command wraps the rules of its table after their rows have been resolved. A
wrapped rule searches for the same text in the same mode, and the division of a text does not
look at the replacement, so it hits where the rule of the table does.
-/

namespace Manuscript

namespace Table

section Sources

variable {store : Store} {source : Source} {sources : List Source} {rules : List Rule}

/-- The rules of a source come from its table, and are wrapped if it has a command. -/
theorem rulesOfSource_ok_iff :
    rulesOfSource store source = .ok rules ↔
      ∃ table, rulesAt store source.path = .ok table ∧
        match source.wrap with
        | none => rules = table
        | some command => List.Forall₂ (Rule.Wrapped command) table rules := by
  rw [rulesOfSource, map_ok_iff]
  cases source.wrap with
  | none => simp only [eq_comm]
  | some command =>
    have mapped : ∀ table, List.Forall₂ (Rule.Wrapped command) table rules ↔
        table.map (Rule.wrap command) = rules := by
      intro table
      rw [← List.forall₂_eq_eq_eq, List.forall₂_map_left_iff]
      constructor
      · exact fun related => related.imp fun _ _ => Rule.wrapped_iff.mp
      · exact fun related => related.imp fun _ _ => Rule.wrapped_iff.mpr
    dsimp only
    simp only [mapped]

theorem rulesOfSource_error_iff {failure : Failure} :
    rulesOfSource store source = .error failure ↔ rulesAt store source.path = .error failure :=
  map_error_iff

/-- A source and others give their rules if it does and they do. -/
theorem rulesOfSources_cons_ok_iff :
    rulesOfSources store (source :: sources) = .ok rules ↔
      ∃ first others, rulesOfSource store source = .ok first ∧
        rulesOfSources store sources = .ok others ∧ rules = first ++ others := by
  rw [rulesOfSources]
  constructor
  · intro succeeded
    obtain ⟨first, found, succeeded⟩ := bind_ok succeeded
    obtain ⟨others, later, built⟩ := bind_ok succeeded
    exact ⟨first, others, found, later, (Except.ok.inj built).symm⟩
  · rintro ⟨first, others, found, later, rfl⟩
    rw [found, later]
    rfl

/-- The rules of a list of sources are those of each of them, in their order. -/
theorem rulesOfSources_ok_iff :
    rulesOfSources store sources = .ok rules ↔
      ∃ groups, List.Forall₂ (fun source group => rulesOfSource store source = .ok group)
        sources groups ∧ rules = groups.flatten := by
  induction sources generalizing rules with
  | nil => simp [rulesOfSources, eq_comm]
  | cons source rest inductionHypothesis =>
    simp only [rulesOfSources_cons_ok_iff, inductionHypothesis, List.forall₂_cons_left_iff]
    constructor
    · rintro ⟨first, _, found, ⟨groups, later, rfl⟩, rfl⟩
      exact ⟨_, ⟨first, groups, found, later, rfl⟩, rfl⟩
    · rintro ⟨_, ⟨first, groups, found, later, rfl⟩, rfl⟩
      exact ⟨first, _, found, ⟨groups, later, rfl⟩, rfl⟩

/-- Two lists of sources, one behind the other, give the rules of both. -/
theorem rulesOfSources_append_ok_iff {others : List Source} :
    rulesOfSources store (sources ++ others) = .ok rules ↔
      ∃ first second, rulesOfSources store sources = .ok first ∧
        rulesOfSources store others = .ok second ∧ rules = first ++ second := by
  induction sources generalizing rules with
  | nil => simp [rulesOfSources, eq_comm]
  | cons source rest inductionHypothesis =>
    simp only [List.cons_append, rulesOfSources_cons_ok_iff, inductionHypothesis]
    constructor
    · rintro ⟨group, _, found, ⟨first, second, earlier, later, rfl⟩, rfl⟩
      exact ⟨_, second, ⟨group, first, found, earlier, rfl⟩, later, (List.append_assoc _ _ _).symm⟩
    · rintro ⟨_, second, ⟨group, first, found, earlier, rfl⟩, later, rfl⟩
      exact ⟨group, _, found, ⟨first, second, earlier, later, rfl⟩, List.append_assoc _ _ _⟩

/-- A list of sources fails at the first one whose table cannot be read. -/
theorem rulesOfSources_error_iff {failure : Failure} :
    rulesOfSources store sources = .error failure ↔
      ∃ before failing after, sources = before ++ failing :: after ∧
        (∀ earlier ∈ before, ∃ table, rulesAt store earlier.path = .ok table) ∧
        rulesAt store failing.path = .error failure := by
  induction sources with
  | nil => simp [rulesOfSources]
  | cons source rest inductionHypothesis =>
    rw [exists_first_cons_iff, ← inductionHypothesis, rulesOfSources]
    cases found : rulesAt store source.path with
    | error first =>
      rw [rulesOfSource_error_iff.mpr found]
      simp [bind, Except.bind]
    | ok table =>
      have group : rulesOfSource store source = .ok _ := map_ok_iff.mpr ⟨table, found, rfl⟩
      rw [group]
      cases rulesOfSources store rest with
      | error other => simp [bind, Except.bind]
      | ok others => simp [bind, Except.bind, pure, Except.pure]

/-- A table that gives rules has a header, and all of its records could be read. -/
theorem rulesOfTable_ok {path : Path} {records : List Record} {trouble : Option Trouble}
    (succeeded : rulesOfTable path records trouble = .ok rules) :
    ∃ header rest, records = header :: rest ∧ trouble = none ∧
      rulesOfRecords header.cells rest = .ok rules := by
  cases records with
  | nil => cases trouble <;> cases succeeded
  | cons header rest =>
    simp only [rulesOfTable] at succeeded
    split at succeeded
    case isFalse => cases succeeded
    case isTrue =>
      cases found : rulesOfRecords header.cells rest with
      | error fault =>
        rw [found] at succeeded
        cases succeeded
      | ok others =>
        rw [found] at succeeded
        cases trouble with
        | some trouble => cases succeeded
        | none =>
          cases succeeded
          exact ⟨header, rest, rfl, rfl, found⟩

/-- The rules of a table that can be read are made of the cells of its records. -/
theorem rulesAt_ok {path : Path} (succeeded : rulesAt store path = .ok rules) :
    ∃ bytes header records, store.read path = .ok bytes ∧
      recordsOfBytes (delimiter path) bytes = (header :: records, none) ∧
      List.Forall₂ (RuleOf header.cells) (filled records) rules := by
  unfold rulesAt at succeeded
  split at succeeded
  case isFalse => cases succeeded
  case isTrue =>
    cases read : store.read path with
    | error error =>
      rw [read] at succeeded
      cases succeeded
    | ok bytes =>
      rw [read] at succeeded
      obtain ⟨header, records, split, whole, found⟩ := rulesOfTable_ok succeeded
      refine ⟨bytes, header, records, rfl, Prod.ext split whole, ?_⟩
      refine (rulesOfRecords_ok_iff.mp found).imp ?_
      rintro cells _ ⟨row, gives, rfl⟩
      exact gives.ruleOf

end Sources

/-- The rules of a table, as reading it gives them. -/
theorem result_read (path : Path) (start : Workspace) :
    ((read path).outcome start).1 = rulesAt start.store path := by
  obtain ⟨log, ended⟩ := outcome_read path start
  rw [ended]

/-- The rules of a list of sources, as loading it gives them. -/
theorem result_load (sources : List Source) (start : Workspace) :
    ((load sources).outcome start).1 = rulesOfSources start.store sources := by
  obtain ⟨log, ended⟩ := outcome_load sources start
  rw [ended]

/-- Loading lists of tables, whatever is in the files. A list that goes on behind another one is
loaded exactly if both are; the rules of the first then come first and are applied first. If a
list cannot be loaded, its first table that cannot be read is the reason. The rules are those of
the tables, each made of the cells of a record; where a source has a command, only the replacement
is another one, and a text is divided in one and the same way for a rule and for its wrapped
form. -/
theorem load_in_order (start : Workspace) :
    (∀ sources others rules, ((load (sources ++ others)).outcome start).1 = .ok rules ↔
      ∃ first second, ((load sources).outcome start).1 = .ok first ∧
        ((load others).outcome start).1 = .ok second ∧ rules = first ++ second) ∧
    (∀ first second text,
      applyRules (first ++ second) text = applyRules second (applyRules first text)) ∧
    (∀ sources failure, ((load sources).outcome start).1 = .error failure ↔
      ∃ before failing after, sources = before ++ failing :: after ∧
        (∀ earlier ∈ before, ∃ table, ((read earlier.path).outcome start).1 = .ok table) ∧
        ((read failing.path).outcome start).1 = .error failure) ∧
    (∀ sources rules, ((load sources).outcome start).1 = .ok rules ↔
      ∃ groups, rules = groups.flatten ∧ List.Forall₂ (fun source group =>
        ∃ table, ((read source.path).outcome start).1 = .ok table ∧
          match source.wrap with
          | none => group = table
          | some command => List.Forall₂ (Rule.Wrapped command) table group) sources groups) ∧
    (∀ path table, ((read path).outcome start).1 = .ok table →
      ∃ bytes header records, start.store.read path = .ok bytes ∧
        recordsOfBytes (delimiter path) bytes = (header :: records, none) ∧
        List.Forall₂ (RuleOf header.cells) (filled records) table) ∧
    ∀ command plain wrapped, Rule.Wrapped command plain wrapped → ∀ text,
      ∃ pieces : List Piece, pieces.flatMap (Piece.source plain.search) = text ∧
        plain.substitute text = pieces.flatMap (Piece.render plain.replace) ∧
        wrapped.substitute text =
          pieces.flatMap (Piece.render ('\\' :: command ++ '{' :: plain.replace ++ ['}'])) := by
  simp only [result_load, result_read]
  refine ⟨fun sources others rules => rulesOfSources_append_ok_iff, ?_, fun sources failure =>
    rulesOfSources_error_iff, ?_, fun path table succeeded => rulesAt_ok succeeded, ?_⟩
  · intro first second text
    exact List.foldl_append
  · intro sources rules
    simp only [rulesOfSources_ok_iff, rulesOfSource_ok_iff]
    constructor
    · rintro ⟨groups, found, rfl⟩
      exact ⟨groups, rfl, found⟩
    · rintro ⟨groups, rfl, found⟩
      exact ⟨groups, found, rfl⟩
  · intro command plain wrapped wraps text
    refine ⟨plain.divide text, plain.divide_source text, rfl, ?_⟩
    rw [Rule.substitute, wraps.divide, wraps.replace]

end Table

end Manuscript
