import JavadocCoverage.Proofs.Command.Implicit

/-!
# Complete command lines

When `check` is put in, read off the arguments: they name no command behind their first
options (`HasCommand`), and none of them asks for information.  Command lines that need no
command are the complete ones (`IsComplete`).  Putting the command in leaves just these as
they are, and makes a complete one of any other; so a second time changes nothing
(`withImplicitCheck_idempotent`).
-/

namespace JavadocCoverage

/-! ### The command behind the options -/

/-- The arguments are options, each of those that take the next argument with its value.
None of them is the separator unless as a value. -/
inductive AreOptions : List Text → Prop
  | nil : AreOptions []
  | value {argument value : Text} {arguments : List Text} (hvalue : argument ∈ valueArguments)
      (hrest : AreOptions arguments) :
    AreOptions (argument :: value :: arguments)
  | option {argument : Text} {arguments : List Text} (hseparator : argument ≠ "--".toList)
      (hvalue : argument ∉ valueArguments)
      (hdash : Text.startsWith "-".toList argument = true)
      (hrest : AreOptions arguments) :
    AreOptions (argument :: arguments)

/-- What follows the first options is the name of a command. -/
def HasCommand (arguments : List Text) : Prop :=
  ∃ before name after, arguments = before ++ CommandName.word name :: after ∧ AreOptions before

/-- The name of a command is neither an option nor the separator. -/
theorem namesCommand_word_cons (name : CommandName) (arguments : List Text) :
  namesCommand (name.word :: arguments) = true
  := by
  have hseparator : name.word ≠ "--".toList := by
    cases name <;> decide
  have hvalue : name.word ∉ valueArguments := by
    cases name <;> decide
  have hdash : ¬ Text.startsWith "-".toList name.word = true := by
    cases name <;> decide
  rw [namesCommand_of_not_startsWith hseparator hvalue hdash]
  cases name <;> rfl

/-- The search passes over options and their values. -/
theorem AreOptions.namesCommand_append
    {before : List Text} (h : AreOptions before) (after : List Text) :
  namesCommand (before ++ after) = namesCommand after
  := by
  induction h with
  | nil => rfl
  | value hvalue _ ih =>
    rw [List.cons_append, List.cons_append, namesCommand_of_mem_valueArguments hvalue, ih]
  | option hseparator hvalue hdash _ ih =>
    rw [List.cons_append, namesCommand_of_startsWith hseparator hvalue hdash, ih]

/-- The search finds a command just where there is one. -/
theorem namesCommand_iff {arguments : List Text} :
  namesCommand arguments = true ↔ HasCommand arguments
  := by
  constructor
  · intro h
    induction arguments using namesCommand.induct with
    | case1 => cases h
    | case2 arguments =>
      rw [namesCommand_separator] at h
      cases h
    | case3 argument hargument hvalue =>
      rw [namesCommand, if_neg hargument, if_pos hvalue] at h
      cases h
    | case4 argument hargument hvalue value arguments ih =>
      have hvalue := List.elem_iff.mp hvalue
      rw [namesCommand_of_mem_valueArguments hvalue] at h
      obtain ⟨before, name, after, rfl, hbefore⟩ := ih h
      use argument :: value :: before, name, after, rfl
      apply AreOptions.value hvalue hbefore
    | case5 argument arguments hargument hvalue hdash ih =>
      have hvalue := mt List.elem_iff.mpr hvalue
      rw [namesCommand_of_startsWith hargument hvalue hdash] at h
      obtain ⟨before, name, after, rfl, hbefore⟩ := ih h
      use argument :: before, name, after, rfl
      apply AreOptions.option hargument hvalue hdash hbefore
    | case6 argument arguments hargument hvalue hdash =>
      rw [namesCommand_of_not_startsWith hargument (mt List.elem_iff.mpr hvalue) hdash,
        Option.isSome_iff_exists] at h
      obtain ⟨name, hname⟩ := h
      use [], name, arguments
      rw [CommandName.word_of_ofWord? hname]
      exact ⟨rfl, AreOptions.nil⟩
  · rintro ⟨before, name, after, rfl, hbefore⟩
    rw [hbefore.namesCommand_append, namesCommand_word_cons]

/-! ### Complete command lines -/

/-- The command line needs no command: it has not even the name of a program, or it names
a command, or it asks for information. -/
def IsComplete : List Text → Prop
  | [] => True
  | _ :: arguments =>
    HasCommand arguments ∨ ∃ argument ∈ arguments, argument ∈ informationArguments

theorem withImplicitCheck_of_isComplete {arguments : List Text} (h : IsComplete arguments) :
  withImplicitCheck arguments = arguments
  := by
  cases arguments with
  | nil => rfl
  | cons program arguments =>
    obtain ⟨-, hself⟩ | ⟨hnames, hasks, -⟩ := withImplicitCheck_cases program arguments
    · exact hself
    · rcases h with hcommand | hinformation
      · cases hnames.symm.trans (namesCommand_iff.mpr hcommand)
      · cases hasks.symm.trans (asksForInformation_iff.mpr hinformation)

theorem withImplicitCheck_of_not_isComplete {arguments : List Text} (h : ¬ IsComplete arguments) :
  withImplicitCheck arguments = arguments.insertIdx 1 "check".toList
  := by
  cases arguments with
  | nil => exact absurd trivial h
  | cons program arguments =>
    obtain ⟨hcomplete, -⟩ | ⟨-, -, hcheck⟩ := withImplicitCheck_cases program arguments
    · rw [namesCommand_iff, asksForInformation_iff] at hcomplete
      exact absurd hcomplete h
    · exact hcheck

/-- A command line is complete once the command is put in. -/
theorem isComplete_withImplicitCheck (arguments : List Text) :
  IsComplete (withImplicitCheck arguments)
  := by
  by_cases h : IsComplete arguments
  · rw [withImplicitCheck_of_isComplete h]
    exact h
  · rw [withImplicitCheck_of_not_isComplete h]
    cases arguments with
    | nil => trivial
    | cons program arguments =>
      left
      exact ⟨[], .check, arguments, rfl, AreOptions.nil⟩

/-- Just the complete command lines stay as they are. -/
theorem withImplicitCheck_eq_self_iff {arguments : List Text} :
  withImplicitCheck arguments = arguments ↔ IsComplete arguments
  := by
  constructor
  · intro hself
    have hcomplete := isComplete_withImplicitCheck arguments
    rwa [hself] at hcomplete
  · exact withImplicitCheck_of_isComplete

theorem not_isComplete_iff {arguments : List Text} :
  ¬ IsComplete arguments
    ↔ arguments ≠ [] ∧ ¬ HasCommand arguments.tail
      ∧ ∀ argument ∈ arguments.tail, argument ∉ informationArguments
  := by
  cases arguments with
  | nil => simp [IsComplete]
  | cons program arguments => simp [IsComplete, not_or]

/-- Putting the command in changes a command line in no other way, and a second time in
none.  The command is put in just when no argument names one behind the first options and
none asks for information. -/
theorem withImplicitCheck_idempotent (arguments : List Text) :
  (withImplicitCheck arguments = arguments
      ∨ withImplicitCheck arguments = arguments.insertIdx 1 "check".toList)
    ∧ withImplicitCheck (withImplicitCheck arguments) = withImplicitCheck arguments
    ∧ (withImplicitCheck arguments ≠ arguments
      ↔ arguments ≠ [] ∧ ¬ HasCommand arguments.tail
        ∧ ∀ argument ∈ arguments.tail,
          argument ∉ ["-h", "--help", "-V", "--version"].map String.toList)
  := by
  refine ⟨?_, ?_, ?_⟩
  · by_cases h : IsComplete arguments
    · left
      exact withImplicitCheck_of_isComplete h
    · right
      exact withImplicitCheck_of_not_isComplete h
  · apply withImplicitCheck_of_isComplete
    apply isComplete_withImplicitCheck
  · rw [ne_eq, withImplicitCheck_eq_self_iff]
    exact not_isComplete_iff

/-- A command is the value of an option, a second one stands behind the separator, and a
dash alone is passed over: `check` is put in. -/
example :
    let arguments := ["p", "-o", "files", "-", "--", "check"].map String.toList
    withImplicitCheck arguments
      = ["p", "check", "-o", "files", "-", "--", "check"].map String.toList := by
  decide

end JavadocCoverage
