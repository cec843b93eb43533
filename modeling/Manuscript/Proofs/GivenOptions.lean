import Manuscript.CommandLine.Arguments

/-!
# Options given on the command line

A build may be given its input and its output directory, each any number of times, in one
argument with an equals sign or in two arguments. The request that is read from such arguments
has for each option the value that was given last, and none where the option was not given.
-/

namespace Manuscript.CommandLine

/-- An option of a build with its value. A value in an argument of its own must not begin like
an option. -/
structure Given where
  flag : Flag
  value : Text
  attached : Bool
  valued : flag.takesValue = true
  plain : attached = false → value.head? ≠ some '-'

namespace Given

/-- The arguments that give an option. -/
def written (given : Given) : List Text :=
  if given.attached then [given.flag.name.toList ++ '=' :: given.value]
  else [given.flag.name.toList, given.value]

/-- What a build takes these arguments for. -/
def classified (given : Given) : List (Text × Argument) :=
  if given.attached then
    [(given.flag.name.toList ++ '=' :: given.value,
      .option given.flag (some (.assigned given.value)))]
  else [(given.flag.name.toList, .option given.flag none), (given.value, .plain)]

/-- The option and its value. -/
def entry (given : Given) : Flag × Text := (given.flag, given.value)

end Given

/-- What does not begin with a dash is a plain argument. -/
theorem classifyOne_plain (names : Names) {argument : Text} (plain : argument.head? ≠ some '-') :
    classifyOne names argument = .ok .plain := by
  have named : argument ≠ "--".toList := by
    rintro rfl
    exact plain rfl
  rw [classifyOne, if_neg named, if_pos plain]

/-- A build knows its options by their names. -/
theorem classifyOne_named {flag : Flag} (valued : flag.takesValue = true) :
    classifyOne Parser.build.names flag.name.toList = .ok (.option flag none) := by
  cases flag with
  | input => rfl
  | outputDirectory => rfl
  | help => cases valued
  | version => cases valued

/-- A build finds the value of an option behind an equals sign. -/
theorem classifyOne_attached {flag : Flag} (valued : flag.takesValue = true) (value : Text) :
    classifyOne Parser.build.names (flag.name.toList ++ '=' :: value) =
      .ok (.option flag (some (.assigned value))) := by
  cases flag with
  | input => rfl
  | outputDirectory => rfl
  | help => cases valued
  | version => cases valued

/-- The program itself does not know the options of a build. -/
theorem classifyOne_foreign {flag : Flag} (valued : flag.takesValue = true) (tail : Text)
    (attached : tail = [] ∨ ∃ value, tail = '=' :: value) :
    ∃ kind, classifyOne Parser.program.names (flag.name.toList ++ tail) = .ok kind ∧
      kind ≠ .separator := by
  have foreign : classifyOne Parser.program.names (flag.name.toList ++ tail) =
      if isNegativeNumber (flag.name.toList ++ tail) || (flag.name.toList ++ tail).contains ' '
      then .ok .plain else .ok .unknown := by
    rcases attached with rfl | ⟨value, rfl⟩
    all_goals cases flag with
    | input => rfl
    | outputDirectory => rfl
    | help => cases valued
    | version => cases valued
  rw [foreign]
  split
  · exact ⟨.plain, rfl, nofun⟩
  · exact ⟨.unknown, rfl, nofun⟩

/-- An argument that is no separator is classified by itself. -/
theorem classify_cons {parser : Parser} {argument : Text} {kind : Argument} (rest : List Text)
    (known : classifyOne parser.names argument = .ok kind) (apart : kind ≠ .separator) :
    classify parser (argument :: rest) =
      (classify parser rest).map ((argument, kind) :: ·) := by
  rw [classify, known]
  cases kind with
  | separator => exact absurd rfl apart
  | plain => rfl
  | unknown => rfl
  | option flag attached => rfl

/-- Arguments that are classified one by one are classified together, in their order. -/
theorem classify_ok {parser : Parser} {arguments : List Text}
    (each : ∀ argument ∈ arguments, ∃ kind, classifyOne parser.names argument = .ok kind ∧
      kind ≠ .separator) :
    ∃ kinds, classify parser arguments = .ok kinds ∧ kinds.map Prod.fst = arguments := by
  induction arguments with
  | nil => exact ⟨[], rfl, rfl⟩
  | cons argument rest inductionHypothesis =>
    rw [List.forall_mem_cons] at each
    obtain ⟨⟨kind, known, apart⟩, others⟩ := each
    obtain ⟨kinds, classified, same⟩ := inductionHypothesis others
    refine ⟨(argument, kind) :: kinds, ?_, by rw [List.map_cons, same]⟩
    rw [classify_cons rest known apart, classified]
    rfl

/-- A build takes given options for what they are. -/
theorem classify_build (options : List Given) :
    classify .build (options.flatMap Given.written) = .ok (options.flatMap Given.classified) := by
  induction options with
  | nil => rfl
  | cons given rest inductionHypothesis =>
    obtain ⟨flag, value, attached, valued, plain⟩ := given
    rw [List.flatMap_cons, List.flatMap_cons]
    cases attached with
    | true =>
      simp only [Given.written, Given.classified, if_true, List.singleton_append]
      rw [classify_cons _ (classifyOne_attached valued value) nofun, inductionHypothesis]
      rfl
    | false =>
      simp only [Given.written, Given.classified, Bool.false_eq_true, if_false, List.cons_append,
        List.nil_append]
      rw [classify_cons _ (classifyOne_named valued) nofun,
        classify_cons _ (classifyOne_plain _ (plain rfl)) nofun, inductionHypothesis]
      rfl

/-- The program takes given options for arguments that it leaves to the command. -/
theorem classify_program (options : List Given) :
    ∃ kinds, classify .program (options.flatMap Given.written) = .ok kinds ∧
      kinds.map Prod.fst = options.flatMap Given.written := by
  refine classify_ok ?_
  intro argument member
  obtain ⟨⟨flag, value, attached, valued, plain⟩, -, member⟩ := List.mem_flatMap.mp member
  cases attached with
  | true =>
    obtain rfl := List.mem_singleton.mp member
    exact classifyOne_foreign valued _ (.inr ⟨value, rfl⟩)
  | false =>
    have either : argument = flag.name.toList ∨ argument = value := by
      simpa [Given.written] using member
    rcases either with rfl | rfl
    · rw [← List.append_nil flag.name.toList]
      exact classifyOne_foreign valued [] (.inl rfl)
    · exact ⟨.plain, classifyOne_plain _ (plain rfl), nofun⟩

/-- The values of given options are read in their order, and nothing is left over. -/
theorem readOptions_given (options : List Given) :
    readOptions .build (options.flatMap Given.classified) = .ok (options.map Given.entry, []) := by
  induction options with
  | nil => rfl
  | cons given rest inductionHypothesis =>
    obtain ⟨flag, value, attached, valued, plain⟩ := given
    rw [List.flatMap_cons]
    cases attached with
    | true =>
      simp only [Given.classified, if_true, List.singleton_append, readOptions, valued,
        inductionHypothesis]
      rfl
    | false =>
      simp only [Given.classified, Bool.false_eq_true, if_false, List.cons_append, List.nil_append,
        readOptions, valued, if_true, inductionHypothesis]
      rfl

/-- A build with given options is read as a request with the last value of each. -/
theorem read_given (options : List Given) :
    read ("build".toList :: options.flatMap Given.written) =
      .ok (.build (lastValue .input (options.map Given.entry))
        (lastValue .outputDirectory (options.map Given.entry))) := by
  obtain ⟨kinds, classified, same⟩ := classify_program options
  have front : classifyOne Parser.program.names "build".toList = .ok .plain :=
    classifyOne_plain _ (by decide)
  have command : readCommand "build".toList (kinds.map Prod.fst) =
      .ok (.build (lastValue .input (options.map Given.entry))
        (lastValue .outputDirectory (options.map Given.entry)), []) := by
    rw [same, readCommand, if_pos rfl, classify_build options]
    simp only [bind, Except.bind, readOptions_given options]
    rfl
  rw [read, classify_cons _ front nofun, classified]
  simp only [Except.map, bind, Except.bind, readProgram, command]
  rfl

end Manuscript.CommandLine
