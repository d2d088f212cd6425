import JavadocCoverage.Proofs.Command.Argument

/-!
# Reading many arguments

The two readers as repetitions of `Progress.take`.  After a command, the arguments are
taken one after the other up to the separator (`read_append`).  Before a command, those
that belong to an option are (`readProgram_cons`); each of them may stand after `check`
just as well (`take_check_of_take_program`).

What ends a reading with help or the version is an argument that asks for it
(`recognises_of_take_eq_error`), never the end of the arguments or the separator.
-/

namespace JavadocCoverage

namespace Progress

variable {progress next : Progress} {settings : Settings} {parameter : Parameter}

/-! ### After a command -/

/-- The reading after arguments that are not separators. -/
def takeAll (progress : Progress) (scope : Scope) (arguments : List Text) :
    Except Stop Progress :=
  arguments.foldlM (·.take scope ·) progress

theorem takeAll_cons_eq_ok_iff {scope : Scope} {argument : Text} {arguments : List Text} :
  progress.takeAll scope (argument :: arguments) = .ok next
    ↔ ∃ first, progress.take scope argument = .ok first
      ∧ first.takeAll scope arguments = .ok next
  := by
  rw [takeAll, List.foldlM_cons, bind_eq_ok_iff]
  rfl

theorem root?_of_takeAll
    {scope : Scope} {arguments : List Text} (hseparator : "--".toList ∉ arguments)
    (h : progress.takeAll scope arguments = .ok next) {root : Text}
    (hroot : progress.root? = some root) :
  next.root? = some root
  := by
  induction arguments generalizing progress with
  | nil =>
    cases h
    exact hroot
  | cons argument arguments ih =>
    obtain ⟨hargument, hrest⟩ := List.ne_and_not_mem_of_not_mem_cons hseparator
    obtain ⟨first, hfirst, h⟩ := takeAll_cons_eq_ok_iff.mp h
    have htaken := taken_of_take (Ne.symm hargument) hfirst
    apply ih hrest h (htaken.root?_eq_some hroot)

theorem read_cons {scope : Scope} {argument : Text} (h : argument ≠ "--".toList)
    (arguments : List Text) :
  progress.read scope (argument :: arguments)
    = progress.take scope argument >>= fun next => next.read scope arguments
  := by
  rw [read, take]
  cases hshape : Shape.of argument with
  | separator => cases h (Shape.eq_of_of_eq_separator hshape)
  | long name value => rfl
  | short letter rest => rfl
  | word => rfl

/-- The arguments before the separator are taken first. -/
theorem read_append
    {scope : Scope} {before : List Text} (hseparator : "--".toList ∉ before)
    (after : List Text) :
  progress.read scope (before ++ after)
    = progress.takeAll scope before >>= fun last => last.read scope after
  := by
  induction before generalizing progress with
  | nil => rfl
  | cons argument before ih =>
    obtain ⟨hargument, hbefore⟩ := List.ne_and_not_mem_of_not_mem_cons hseparator
    rw [List.cons_append, read_cons (Ne.symm hargument), takeAll, List.foldlM_cons, bind_assoc]
    congr 1
    funext first
    apply ih hbefore

theorem read_eq_settle
    {scope : Scope} {arguments : List Text} {last : Progress}
    (hseparator : "--".toList ∉ arguments)
    (htake : progress.takeAll scope arguments = .ok last) :
  progress.read scope arguments = last.settle
  := by
  rw [← List.append_nil arguments, read_append hseparator, htake]
  rfl

/-- Where words after the separator can be read, all that stands before it is complete. -/
theorem exists_settle_of_readWords {words : List Text}
    (h : progress.readWords words = .ok settings) :
  ∃ settings, progress.settle = .ok settings
  := by
  cases words with
  | nil => exact ⟨settings, h⟩
  | cons word words =>
    obtain ⟨next, hnext, -⟩ := bind_eq_ok_iff.mp h
    obtain ⟨-, settings, hsettle, -⟩ := takeRoot_eq_ok_iff.mp hnext
    use settings, hsettle

/-- One word after the separator is the root. -/
theorem readWords_singleton
    {root : Text} (hroot : root ≠ []) (hsettle : progress.settle = .ok settings)
    (hnone : settings.root = none) :
  progress.readWords [root] = .ok { settings with root := some root }
  := by
  have hhas : progress.hasRoot = false := by
    rw [hasRoot_eq_isSome_root? (awaited?_of_settle hsettle), ← root?_of_settle hsettle, hnone]
    rfl
  apply bind_eq_ok_iff.mpr
  use { settings, held := some (.root, some root) }
  constructor
  · apply takeRoot_eq_ok_iff.mpr ⟨hhas, settings, hsettle, rfl⟩
  · apply mapError_eq_ok_iff.mpr
    apply Settings.give_root_eq_ok_iff.mpr ⟨hnone, hroot, rfl⟩

/-! ### Before a command -/

/-- The argument belongs to an option, as its name or as its value. -/
def OfOption (progress : Progress) (argument : Text) : Prop :=
  argument ≠ "--".toList ∧ (progress.awaited? ≠ none ∨ Shape.of argument ≠ .word)

theorem readProgram_cons {argument : Text} (h : progress.OfOption argument)
    (arguments : List Text) :
  progress.readProgram (argument :: arguments)
    = progress.take .program argument >>= fun next => next.readProgram arguments
  := by
  obtain ⟨hargument, hword⟩ := h
  rw [readProgram, take]
  cases hshape : Shape.of argument with
  | separator => cases hargument (Shape.eq_of_of_eq_separator hshape)
  | long name value => rfl
  | short letter rest => rfl
  | word =>
    rw [takeWord]
    cases hawaited : progress.awaited? with
    | some parameter => rfl
    | none =>
      rcases hword with hword | hword
      · cases hword hawaited
      · cases hword hshape

/-- Help and the version end the reading. -/
theorem takeFlag_ne_ok (scope : Scope) (h : parameter = .help ∨ parameter = .version) :
  progress.takeFlag scope parameter ≠ .ok next
  := by
  intro hflag
  obtain ⟨settings, -, hflag⟩ := bind_eq_ok_iff.mp hflag
  rcases h with rfl | rfl
  · cases hflag
  · cases hflag

/-- The filter of the log is given before a command as it is after `check`. -/
theorem recognises_check_logLevel {argument : Text} {value : Option Text}
    (h : Scope.program.Recognises argument .logLevel value) :
  Scope.check.Recognises argument .logLevel value
  := by
  cases h with
  | name hshape hname hvalue =>
    obtain ⟨-, hname⟩ := Scope.of_ofLongName? hname
    cases hname
    apply Scope.Recognises.name hshape rfl hvalue
  | letter hshape hletter =>
    obtain ⟨-, hletter⟩ := Scope.of_ofLetter? hletter
    cases hletter

/-- What is taken before a command is taken in the same way after `check`. -/
theorem take_check_of_take_program {argument : Text} (hargument : argument ≠ "--".toList)
    (h : progress.take .program argument = .ok next) :
  progress.take .check argument = .ok next
  := by
  by_cases hword : Shape.of argument = .word
  · rw [take_of_word hword] at h ⊢
    exact h
  · rcases Scope.program.recognises_or_usage hargument hword
      with ⟨parameter, value, hgives⟩ | ⟨error, herror⟩
    · rw [hgives.take_eq] at h
      have hnamed := hgives.mem_named
      simp only [Scope.named, List.mem_cons, List.not_mem_nil, or_false] at hnamed
      rcases hnamed with rfl | hflag
      · rw [(recognises_check_logLevel hgives).take_eq]
        exact h
      · rw [Parameter.takesValue_of_request hflag, if_neg Bool.false_ne_true] at h
        cases takeFlag_ne_ok .program hflag h
    · cases (herror progress).symm.trans h

/-! ### Requests for help and the version -/

variable {stop : Stop}

theorem isInformation_of_takeValue {value : Option Text}
    (h : progress.takeValue parameter value = .error stop) :
  stop.isInformation = false
  := by
  rcases bind_eq_error_iff.mp h with hsettle | ⟨settings, -, h⟩
  · apply isInformation_of_settle hsettle
  · cases value with
    | none => cases h
    | some value =>
      rcases bind_eq_error_iff.mp h with hgive | ⟨settings', -, h⟩
      · apply isInformation_of_mapError hgive
      · cases h

theorem isInformation_of_takeWord {word : Text} (h : progress.takeWord word = .error stop) :
  stop.isInformation = false
  := by
  rw [takeWord] at h
  split at h
  · cases h
  · rw [takeRoot] at h
    split at h
    · cases h
      rfl
    · rcases bind_eq_error_iff.mp h with hsettle | ⟨settings, -, h⟩
      · apply isInformation_of_settle hsettle
      · cases h

/-- Help and the version are shown after a look at what is held. -/
theorem of_takeFlag_eq_error {scope : Scope} (hstop : stop.isInformation = true)
    (h : progress.takeFlag scope parameter = .error stop) :
  (∃ settings, progress.settle = .ok settings) ∧
    (parameter = .help ∧ stop = .help scope.topic ∨ parameter = .version ∧ stop = .version)
  := by
  rcases bind_eq_error_iff.mp h with hsettle | ⟨settings, hsettle, h⟩
  · cases (isInformation_of_settle hsettle).symm.trans hstop
  · use ⟨settings, hsettle⟩
    split at h
    · cases h
      left
      exact ⟨rfl, rfl⟩
    · cases h
      right
      exact ⟨rfl, rfl⟩
    · rcases bind_eq_error_iff.mp h with hraise | ⟨settings', -, h⟩
      · cases (isInformation_of_mapError hraise).symm.trans hstop
      · cases h

/-- The argument that ends a reading with help or the version asks for it. -/
theorem recognises_of_take_eq_error
    {scope : Scope} {argument : Text} (hargument : argument ≠ "--".toList)
    (hstop : stop.isInformation = true) (h : progress.take scope argument = .error stop) :
  (∃ settings, progress.settle = .ok settings) ∧
    ((∃ value, scope.Recognises argument .help value) ∧ stop = .help scope.topic
      ∨ (∃ value, scope.Recognises argument .version value) ∧ stop = .version)
  := by
  by_cases hword : Shape.of argument = .word
  · rw [take_of_word hword] at h
    cases (isInformation_of_takeWord h).symm.trans hstop
  · rcases scope.recognises_or_usage hargument hword
      with ⟨parameter, value, hgives⟩ | ⟨error, herror⟩
    · rw [hgives.take_eq] at h
      split at h
      · cases (isInformation_of_takeValue h).symm.trans hstop
      · obtain ⟨hsettle, ⟨rfl, hhelp⟩ | ⟨rfl, hversion⟩⟩ := of_takeFlag_eq_error hstop h
        · exact ⟨hsettle, .inl ⟨⟨value, hgives⟩, hhelp⟩⟩
        · exact ⟨hsettle, .inr ⟨⟨value, hgives⟩, hversion⟩⟩
    · cases (herror progress).symm.trans h
      cases hstop

/-- Help is given where it is asked for and nothing is awaited. -/
theorem take_eq_help
    {scope : Scope} {argument : Text} {value : Option Text}
    (hargument : scope.Recognises argument .help value)
    (hsettle : progress.settle = .ok settings) :
  progress.take scope argument = .error (.help scope.topic)
  := by
  rw [hargument.take_eq, if_neg (by decide), takeFlag, hsettle]
  rfl

theorem isInformation_withoutCommand (progress : Progress) :
  progress.withoutCommand.isInformation = false
  := by
  rw [withoutCommand]
  split
  next stop hsettle => apply isInformation_of_settle hsettle
  next => rfl

theorem isInformation_readAfterSeparator (progress : Progress) (arguments : List Text) :
  (progress.readAfterSeparator arguments).isInformation = false
  := by
  cases arguments with
  | nil => apply isInformation_withoutCommand
  | cons word arguments => rfl

end Progress

end JavadocCoverage
