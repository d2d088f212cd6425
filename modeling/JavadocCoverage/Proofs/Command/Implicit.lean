import Mathlib.Data.List.TakeWhile
import JavadocCoverage.Proofs.Command.Search

/-!
# The command that is left out

What becomes of a command line when `check` is put in where it may be left out.  A command
line that is understood is left as it is (`withImplicitCheck_eq_self`), and one that is
understood with `check` in front is so without it, when its root does not have the name of
a command and none of its arguments asks for information
(`withImplicitCheck_eq_explicit`).

The words that ask for information are looked for among all arguments and by their exact
spelling.  So a root after the separator is not taken when it is one of these words
(`readCommandLine_separator_root_iff`), and a request for help or the version that has
letters joined to it is overlooked and answered otherwise
(`readCommandLine_withImplicitCheck_request`).
-/

namespace JavadocCoverage

open Progress

/-! ### Putting the command in -/

/-- Arguments are either left as they are or get `check` in front. -/
theorem withImplicitCheck_cases (program : Text) (arguments : List Text) :
  ((namesCommand arguments = true ∨ asksForInformation arguments = true)
      ∧ withImplicitCheck (program :: arguments) = program :: arguments)
    ∨ (namesCommand arguments = false ∧ asksForInformation arguments = false
      ∧ withImplicitCheck (program :: arguments)
        = program :: CommandName.check.word :: arguments)
  := by
  rw [withImplicitCheck]
  cases namesCommand arguments with
  | true => exact .inl ⟨.inl rfl, rfl⟩
  | false =>
    cases asksForInformation arguments with
    | true => exact .inl ⟨.inr rfl, rfl⟩
    | false => exact .inr ⟨rfl, rfl, rfl⟩

theorem asksForInformation_iff {arguments : List Text} :
  asksForInformation arguments = true
    ↔ ∃ argument ∈ arguments, argument ∈ informationArguments
  := by
  simp [asksForInformation]

theorem readCommandLine_check (program : Text) (arguments : List Text) :
  readCommandLine (program :: CommandName.check.word :: arguments)
    = Progress.read {} .check arguments >>= fun settings =>
      .ok (invocation {} settings (.check settings.checkOptions))
  := rfl

/-! ### Command lines that are understood -/

/-- A command line that is understood names its command. -/
theorem namesCommand_of_readCommandLine
    {program : Text} {arguments : List Text} {invocation : Invocation}
    (h : readCommandLine (program :: arguments) = .ok invocation) :
  namesCommand arguments = true
  := by
  have haccepts : Progress.Accepts {} arguments := by
    intro stop hstop
    cases h.symm.trans hstop
  rcases namesCommand_or_ends rfl haccepts with hnames | ⟨request, stop, hends⟩
  · exact hnames
  · cases h.symm.trans hends.readProgram

/-- A command line that is understood is left as it is. -/
theorem withImplicitCheck_eq_self
    {arguments : List Text} {invocation : Invocation}
    (h : readCommandLine arguments = .ok invocation) :
  withImplicitCheck arguments = arguments
  := by
  cases arguments with
  | nil => rfl
  | cons program arguments =>
    obtain ⟨-, hself⟩ | ⟨hnames, -, -⟩ := withImplicitCheck_cases program arguments
    · exact hself
    · cases hnames.symm.trans (namesCommand_of_readCommandLine h)

/-- The value of an option before the command has the name of another command, and the
root is spelled like a request for help. -/
theorem withImplicitCheck_eq_self_files :
  let arguments := ["p", "--log-level", "check", "files", "--", "-h"].map String.toList
  readCommandLine arguments = .ok ⟨"check".toList, .files (some "-h".toList)⟩
    ∧ withImplicitCheck arguments = arguments
  := by
  have hread : readCommandLine
      (["p", "--log-level", "check", "files", "--", "-h"].map String.toList)
        = .ok ⟨"check".toList, .files (some "-h".toList)⟩ := by
    rfl
  use hread
  apply withImplicitCheck_eq_self hread

/-! ### Roots before the separator -/

/-- The root of a check that is given before any separator. -/
def rootBeforeSeparator? (arguments : List Text) : Option Text :=
  match Progress.read {} .check (arguments.takeWhile (· ≠ "--".toList)) with
  | .ok settings => settings.root
  | .error _ => none

theorem separator_not_mem_takeWhile (arguments : List Text) :
  "--".toList ∉ arguments.takeWhile (· ≠ "--".toList)
  := by
  intro hmem
  simpa using List.mem_takeWhile_imp hmem

/-- What is left after the arguments before the separator is nothing, or starts with the
separator. -/
theorem dropWhile_ne_separator (arguments : List Text) :
  arguments.dropWhile (· ≠ "--".toList) = []
    ∨ ∃ words, arguments.dropWhile (· ≠ "--".toList) = "--".toList :: words
  := by
  have hhead := List.head?_dropWhile_not (· ≠ "--".toList) arguments
  cases hafter : arguments.dropWhile (· ≠ "--".toList) with
  | nil =>
    left
    rfl
  | cons separator words =>
    rw [hafter] at hhead
    obtain rfl : separator = "--".toList := by simpa using hhead
    right
    use words

/-- What stands before the separator can be read when the whole can. -/
theorem exists_takeAll_of_read
    {arguments : List Text} {settings : Settings}
    (h : Progress.read {} .check arguments = .ok settings) :
  ∃ last : Progress, last.awaited? = none ∧ last.root? = rootBeforeSeparator? arguments
    ∧ Progress.takeAll {} .check (arguments.takeWhile (· ≠ "--".toList)) = .ok last
  := by
  have hseparator := separator_not_mem_takeWhile arguments
  rw [← List.takeWhile_append_dropWhile (p := (· ≠ "--".toList)) (l := arguments),
    read_append hseparator, bind_eq_ok_iff] at h
  obtain ⟨last, htake, h⟩ := h
  have hsettle : ∃ before, last.settle = .ok before := by
    rcases dropWhile_ne_separator arguments with hafter | ⟨words, hafter⟩
    · rw [hafter] at h
      use settings, h
    · rw [hafter] at h
      apply exists_settle_of_readWords h
  obtain ⟨before, hbefore⟩ := hsettle
  use last, awaited?_of_settle hbefore
  constructor
  · rw [rootBeforeSeparator?, read_eq_settle hseparator htake, hbefore, ← root?_of_settle hbefore]
  · exact htake

/-- What the search finds where a check can be read is the root before the separator. -/
theorem rootBeforeSeparator?_of_namesCommand
    {arguments : List Text} {settings : Settings}
    (h : Progress.read {} .check arguments = .ok settings)
    (hnames : namesCommand arguments = true) :
  ∃ name : CommandName, rootBeforeSeparator? arguments = some name.word
  := by
  obtain ⟨last, hlast, hroot, htake⟩ := exists_takeAll_of_read h
  have hafter : namesCommand (arguments.dropWhile (· ≠ "--".toList)) = false := by
    rcases dropWhile_ne_separator arguments with hafter | ⟨words, hafter⟩
    · rw [hafter]
      rfl
    · rw [hafter]
      apply namesCommand_separator
  rw [← List.takeWhile_append_dropWhile (p := (· ≠ "--".toList)) (l := arguments)] at hnames
  rw [← hroot]
  apply exists_root?_of_namesCommand (separator_not_mem_takeWhile arguments) rfl htake hlast
    hafter hnames

/-- A check that is understood with its name is understood without it, and as the same,
where no argument asks for information and no root before the separator has the name of a
command. -/
theorem withImplicitCheck_eq_explicit
    {program : Text} {arguments : List Text} {invocation : Invocation}
    (hinformation : ∀ argument ∈ arguments, argument ∉ informationArguments)
    (hread : readCommandLine (program :: CommandName.check.word :: arguments) = .ok invocation)
    (hroot : ∀ name : CommandName, rootBeforeSeparator? arguments ≠ some name.word) :
  withImplicitCheck (program :: arguments) = program :: CommandName.check.word :: arguments
    ∧ readCommandLine (withImplicitCheck (program :: arguments)) = .ok invocation
  := by
  have hsame : withImplicitCheck (program :: arguments)
      = program :: CommandName.check.word :: arguments := by
    obtain ⟨hnames | hasks, -⟩ | ⟨-, -, hsame⟩ := withImplicitCheck_cases program arguments
    · obtain ⟨settings, hsettings, -⟩ := bind_eq_ok_iff.mp hread
      obtain ⟨name, hname⟩ := rootBeforeSeparator?_of_namesCommand hsettings hnames
      cases hroot name hname
    · obtain ⟨argument, hmem, hargument⟩ := asksForInformation_iff.mp hasks
      cases hinformation argument hmem hargument
    · exact hsame
  use hsame
  rw [hsame, hread]

/-- Two values have the names of commands, and so has the root, which is given after the
separator. -/
theorem withImplicitCheck_eq_explicit_help :
  let arguments :=
    ["--log-level", "check", "-o", "files", "-f=json", "--", "help"].map String.toList
  withImplicitCheck ("p".toList :: arguments) = "p".toList :: "check".toList :: arguments
    ∧ readCommandLine (withImplicitCheck ("p".toList :: arguments))
      = .ok ⟨"check".toList,
        .check ⟨some "help".toList, .json, some "files".toList, false, false⟩⟩
  := by
  apply withImplicitCheck_eq_explicit
  · decide
  · rfl
  · intro name
    cases name <;> decide

/-! ### Roots after the separator -/

/-- After `check`, a word that asks for information is not passed over. -/
theorem take_check_ne_ok
    {argument : Text} (h : argument ∈ informationArguments) (progress next : Progress) :
  progress.take .check argument ≠ .ok next
  := by
  simp only [informationArguments, List.mem_cons, List.not_mem_nil, or_false] at h
  rcases h with rfl | rfl | rfl | rfl
  · apply takeFlag_ne_ok .check (.inl rfl)
  · apply takeFlag_ne_ok .check (.inl rfl)
  · rintro ⟨⟩
  · rintro ⟨⟩

theorem not_mem_informationArguments_of_takeAll
    {arguments : List Text} {progress last : Progress}
    (htake : progress.takeAll .check arguments = .ok last) :
  ∀ argument ∈ arguments, argument ∉ informationArguments
  := by
  induction arguments generalizing progress with
  | nil =>
    intro argument hmem
    cases hmem
  | cons argument arguments ih =>
    obtain ⟨next, hnext, htake⟩ := takeAll_cons_eq_ok_iff.mp htake
    rw [List.forall_mem_cons]
    constructor
    · intro hargument
      apply take_check_ne_ok hargument progress next hnext
    · apply ih htake

/-- Where the options of a check are complete, only the root after the separator can ask
for information. -/
theorem asksForInformation_append_root
    {arguments : List Text} {progress last : Progress}
    (htake : progress.takeAll .check arguments = .ok last) (root : Text) :
  asksForInformation (arguments ++ ["--".toList, root]) = true ↔ root ∈ informationArguments
  := by
  rw [asksForInformation_iff]
  constructor
  · rintro ⟨argument, hmem, hargument⟩
    rcases List.mem_append.mp hmem with hmem | hmem
    · cases not_mem_informationArguments_of_takeAll htake argument hmem hargument
    · simp only [List.mem_cons, List.not_mem_nil, or_false] at hmem
      rcases hmem with rfl | rfl
      · have hother : "--".toList ∉ informationArguments := by decide
        cases hother hargument
      · exact hargument
  · intro hroot
    use root, by simp

/-- A root after the separator is taken, whatever its text, unless it is one of the words
that ask for information. -/
theorem readCommandLine_separator_root_iff
    {program root : Text} {arguments : List Text} {logLevel : Text} {options : CheckOptions}
    (hroot : root ≠ []) (hseparator : "--".toList ∉ arguments)
    (hread : readCommandLine (program :: CommandName.check.word :: arguments)
      = .ok ⟨logLevel, .check options⟩)
    (hnone : options.root = none) :
  readCommandLine (withImplicitCheck (program :: (arguments ++ ["--".toList, root])))
      = .ok ⟨logLevel, .check { options with root := some root }⟩
    ↔ root ∉ informationArguments
  := by
  obtain ⟨settings, hsettings, hoptions⟩ := bind_eq_ok_iff.mp hread
  cases hoptions
  rw [← List.append_nil arguments, read_append hseparator] at hsettings
  obtain ⟨last, htake, hsettle⟩ := bind_eq_ok_iff.mp hsettings
  have hasks := asksForInformation_append_root htake root
  have hsearch : namesCommand (arguments ++ ["--".toList, root]) = false := by
    apply eq_false_of_ne_true
    intro hnames
    obtain ⟨name, hname⟩ := exists_root?_of_namesCommand hseparator rfl htake
      (awaited?_of_settle hsettle) (namesCommand_separator [root]) hnames
    rw [← root?_of_settle hsettle] at hname
    cases hnone.symm.trans hname
  obtain ⟨hseen, hself⟩ | ⟨-, hnot, hself⟩ :=
    withImplicitCheck_cases program (arguments ++ ["--".toList, root])
  · apply iff_of_false
    -- Without a command before the separator, nothing is understood.
    · intro h
      rw [hself] at h
      cases hsearch.symm.trans (namesCommand_of_readCommandLine h)
    · rw [hsearch, hasks] at hseen
      simpa using hseen
  · apply iff_of_true
    · rw [hself, readCommandLine_check, read_append hseparator, htake]
      apply bind_eq_ok_iff.mpr
      use { settings with root := some root }, readWords_singleton hroot hsettle hnone
      rfl
    · rw [← hasks, hnot]
      exact Bool.false_ne_true

/-- The name of a command after the separator is the root. -/
theorem readCommandLine_separator_root_iff_check :
  readCommandLine (withImplicitCheck
      (["p", "--log-level", "files", "-f=json", "--output", "-", "--", "check"].map
        String.toList))
    = .ok ⟨"files".toList, .check ⟨some "check".toList, .json, some "-".toList, false, false⟩⟩
  := by
  have hread : readCommandLine
      (["p", "check", "--log-level", "files", "-f=json", "--output", "-"].map String.toList)
        = .ok ⟨"files".toList, .check ⟨none, .json, some "-".toList, false, false⟩⟩ := by
    rfl
  apply (readCommandLine_separator_root_iff (by decide) (by decide) hread rfl).mpr
  decide

/-- A root after the separator that is spelled like a request for help is not taken, though
it is with `check` in front. -/
theorem not_readCommandLine_separator_help :
  readCommandLine (["p", "check", "--", "-h"].map String.toList)
      = .ok ⟨"warn".toList, .check ⟨some "-h".toList, .text, none, false, false⟩⟩
    ∧ readCommandLine (withImplicitCheck (["p", "--", "-h"].map String.toList))
      = .error (.usage (.unknownCommand "-h".toList))
  := by
  constructor
  · rfl
  · rfl

/-! ### Requests for help and the version -/

/-- The argument is a request for help or the version by a letter, with more joined to
it. -/
def IsJoinedRequest (argument : Text) : Prop :=
  ∃ letter ∈ ['h', 'V'], ['-', letter] <+: argument ∧ argument ≠ ['-', letter]

-- The letters are tried one by one: characters are finitely many, but too many to try.
instance : DecidablePred IsJoinedRequest :=
  fun argument =>
    List.decidableBEx (fun letter => ['-', letter] <+: argument ∧ argument ≠ ['-', letter]) _

/-- A request that the search for information overlooks has letters joined to it. -/
theorem isJoinedRequest_of_recognises
    {scope : Scope} {argument : Text} {parameter : Parameter} {value : Option Text}
    (h : scope.Recognises argument parameter value)
    (hflag : parameter = .help ∨ parameter = .version) (hother : argument ∉ informationArguments) :
  IsJoinedRequest argument
    ∧ ∃ letter rest, parameter.letter? = some letter ∧ argument = '-' :: letter :: rest
  := by
  rcases h.spelling_of_flag (Parameter.takesValue_of_request hflag)
    with ⟨name, hname, rfl⟩ | ⟨letter, rest, hletter, rfl⟩
  · exfalso
    apply hother
    rcases hflag with rfl | rfl
    · cases hname
      decide
    · cases hname
      decide
  · have hrequest : letter ∈ ['h', 'V'] ∧ ['-', letter] ∈ informationArguments := by
      rcases hflag with rfl | rfl
      · cases hletter
        decide
      · cases hletter
        decide
    constructor
    · use letter, hrequest.1, List.prefix_append ['-', letter] rest
      intro hnone
      rw [hnone] at hother
      apply hother hrequest.2
    · use letter, rest

/-- What an overlooked request comes to after `check`: help is given on `check`, and the
version is not known there. -/
theorem read_check_of_endsAt
    {progress : Progress} {request : Text} {stop : Stop} {arguments : List Text}
    (hother : request ∉ informationArguments) (hstop : stop.isInformation = true)
    (h : EndsAt request stop progress arguments) :
  IsJoinedRequest request
    ∧ (stop = .help .program ∧ progress.read .check arguments = .error (.help .check)
      ∨ stop = .version
        ∧ progress.read .check arguments = .error (.usage (.unknownArgument "-V".toList)))
  := by
  obtain ⟨last, hrequest, hlast⟩ := h.exists_take
  obtain ⟨-, ⟨⟨value, hgives⟩, hhelp⟩ | ⟨⟨value, hgives⟩, hversion⟩⟩ :=
    recognises_of_take_eq_error hrequest.1 hstop hlast
  · obtain ⟨hjoined, letter, rest, hletter, rfl⟩ :=
      isJoinedRequest_of_recognises hgives (.inl rfl) hother
    cases hletter
    have hcheck : Scope.check.Recognises ('-' :: 'h' :: rest) .help (attached? rest) :=
      .letter rfl rfl
    exact ⟨hjoined, .inl ⟨hhelp, h.read_check hstop fun _ _ => take_eq_help hcheck⟩⟩
  · obtain ⟨hjoined, letter, rest, hletter, rfl⟩ :=
      isJoinedRequest_of_recognises hgives (.inr rfl) hother
    cases hletter
    exact ⟨hjoined, .inr ⟨hversion, h.read_check hstop fun _ _ _ => rfl⟩⟩

/-- A request for help or the version is left as it is, and so is its answer, unless
letters are joined to it: then help is given on `check`, and the version is refused. -/
theorem readCommandLine_withImplicitCheck_request
    {arguments : List Text} {stop : Stop} (hstop : stop.isInformation = true)
    (hread : readCommandLine arguments = .error stop) :
  (withImplicitCheck arguments = arguments
      ∧ readCommandLine (withImplicitCheck arguments) = .error stop)
    ∨ (∃ request ∈ arguments.drop 1, IsJoinedRequest request)
      ∧ (stop = .help .program
          ∧ readCommandLine (withImplicitCheck arguments) = .error (.help .check)
        ∨ stop = .version
          ∧ readCommandLine (withImplicitCheck arguments)
            = .error (.usage (.unknownArgument "-V".toList)))
  := by
  cases arguments with
  | nil =>
    left
    use rfl, hread
  | cons program arguments =>
    obtain ⟨-, hself⟩ | ⟨hnames, hasks, hcheck⟩ := withImplicitCheck_cases program arguments
    · left
      rw [hself]
      use rfl, hread
    · right
      have haccepts : Progress.Accepts {} arguments := by
        intro stop' hstop'
        cases hread.symm.trans hstop'
        exact hstop
      rcases namesCommand_or_ends rfl haccepts with hnames' | ⟨request, stop', hends⟩
      · cases hnames.symm.trans hnames'
      · cases hread.symm.trans hends.readProgram
        have hother : request ∉ informationArguments := by
          intro hrequest
          cases hasks.symm.trans (asksForInformation_iff.mpr ⟨request, hends.mem, hrequest⟩)
        obtain ⟨hjoined, hanswer⟩ := read_check_of_endsAt hother hstop hends
        use ⟨request, hends.mem, hjoined⟩
        rw [hcheck, readCommandLine_check]
        obtain ⟨rfl, hanswer⟩ | ⟨rfl, hanswer⟩ := hanswer
        · left
          rw [hanswer]
          use rfl
          rfl
        · right
          rw [hanswer]
          use rfl
          rfl

/-- The version is asked for after a value that has the name of a command, and what
follows it would not be understood. -/
theorem readCommandLine_withImplicitCheck_request_version :
  readCommandLine (withImplicitCheck
      (["p", "--log-level", "files", "-V", "-o", "--", "x"].map String.toList))
    = .error .version
  := by
  have hread : readCommandLine
      (["p", "--log-level", "files", "-V", "-o", "--", "x"].map String.toList)
        = .error .version := by
    rfl
  obtain ⟨-, hsame⟩ | ⟨hjoined, -⟩ := readCommandLine_withImplicitCheck_request rfl hread
  · exact hsame
  · revert hjoined
    decide

/-- Two requests by joined letters, for help and for the version. -/
theorem readCommandLine_withImplicitCheck_joinedRequests :
  readCommandLine (["p", "-hV"].map String.toList) = .error (.help .program)
    ∧ readCommandLine (withImplicitCheck (["p", "-hV"].map String.toList))
      = .error (.help .check)
    ∧ readCommandLine (["p", "-Vh"].map String.toList) = .error .version
    ∧ readCommandLine (withImplicitCheck (["p", "-Vh"].map String.toList))
      = .error (.usage (.unknownArgument "-V".toList))
  := by
  use rfl, rfl, rfl
  rfl

end JavadocCoverage
