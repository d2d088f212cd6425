import JavadocCoverage.Proofs.Command.Reading

/-!
# The search for a command

The search for a command beside the two readers.  It knows no parameters, only the
`valueArguments`, and passes over each of them together with the argument after it.  That
this keeps it in step with a reader is the invariant of both inductions here: where the
search stands, the reader awaits no value.

After a command, what the search finds is the root (`exists_root?_of_namesCommand`).
Before a command, a reading that ends without an error of usage has either come to the
command that the search finds, or ends at a request before it
(`namesCommand_or_ends`).
-/

namespace JavadocCoverage

theorem CommandName.word_of_ofWord? {word : Text} {name : CommandName}
    (h : ofWord? word = some name) :
  name.word = word
  := by
  have hword := List.find?_some h
  exact eq_of_beq hword

/-! ### One step of the search -/

section

variable {argument value : Text} {arguments : List Text}

theorem namesCommand_separator (arguments : List Text) :
  namesCommand ("--".toList :: arguments) = false
  := by
  rw [namesCommand.eq_def]
  apply if_pos rfl

theorem namesCommand_of_mem_valueArguments (h : argument ∈ valueArguments) :
  namesCommand (argument :: value :: arguments) = namesCommand arguments
  := by
  have hargument : argument ≠ "--".toList := by
    rintro rfl
    revert h
    decide
  rw [namesCommand, if_neg hargument, if_pos (List.elem_iff.mpr h)]

theorem namesCommand_of_startsWith
    (hargument : argument ≠ "--".toList) (hvalue : argument ∉ valueArguments)
    (hdash : Text.startsWith "-".toList argument = true) :
  namesCommand (argument :: arguments) = namesCommand arguments
  := by
  rw [namesCommand.eq_def]
  dsimp only
  rw [if_neg hargument, if_neg (mt List.elem_iff.mp hvalue), if_pos hdash]

theorem namesCommand_of_not_startsWith
    (hargument : argument ≠ "--".toList) (hvalue : argument ∉ valueArguments)
    (hdash : ¬ Text.startsWith "-".toList argument = true) :
  namesCommand (argument :: arguments) = (CommandName.ofWord? argument).isSome
  := by
  rw [namesCommand.eq_def]
  dsimp only
  rw [if_neg hargument, if_neg (mt List.elem_iff.mp hvalue), if_neg hdash]

end

namespace Progress

variable {progress next last : Progress} {arguments : List Text}

/-! ### After a command -/

/-- What the search finds among the arguments of a command is their root. -/
theorem exists_root?_of_namesCommand
    {scope : Scope} {before after : List Text} (hseparator : "--".toList ∉ before)
    (hawaited : progress.awaited? = none) (htake : progress.takeAll scope before = .ok last)
    (hlast : last.awaited? = none) (hafter : namesCommand after = false)
    (hnames : namesCommand (before ++ after) = true) :
  ∃ name : CommandName, last.root? = some name.word
  := by
  induction before using namesCommand.induct generalizing progress with
  | case1 => cases hafter.symm.trans hnames
  | case2 arguments => cases hseparator List.mem_cons_self
  | case3 argument hargument hvalue =>
    obtain ⟨first, hfirst, htake⟩ := takeAll_cons_eq_ok_iff.mp htake
    cases htake
    rw [(taken_of_take hargument hfirst).awaited?_eq_none_iff] at hlast
    cases hlast (List.elem_iff.mp hvalue)
  | case4 argument hargument hvalue value arguments ih =>
    obtain ⟨-, hrest⟩ := List.ne_and_not_mem_of_not_mem_cons hseparator
    obtain ⟨hne, hrest⟩ := List.ne_and_not_mem_of_not_mem_cons hrest
    obtain ⟨first, hfirst, htake⟩ := takeAll_cons_eq_ok_iff.mp htake
    obtain ⟨second, hsecond, htake⟩ := takeAll_cons_eq_ok_iff.mp htake
    have hfirst := taken_of_take hargument hfirst
    have hsecond := taken_of_take (Ne.symm hne) hsecond
    have hvalue := List.elem_iff.mp hvalue
    -- The value is a word even if it starts like an option to the search.
    have hword := hsecond.eq_word_of_awaited?
      (mt hfirst.awaited?_eq_none_iff.mp (not_not_intro hvalue))
    apply ih hrest _ htake
    · rw [← hnames, List.cons_append, List.cons_append, namesCommand_of_mem_valueArguments hvalue]
    · rw [hsecond.awaited?_eq_none_iff]
      apply not_mem_valueArguments_of_word hword
  | case5 argument arguments hargument hvalue hdash ih =>
    obtain ⟨-, hrest⟩ := List.ne_and_not_mem_of_not_mem_cons hseparator
    obtain ⟨first, hfirst, htake⟩ := takeAll_cons_eq_ok_iff.mp htake
    have hfirst := taken_of_take hargument hfirst
    have hvalue := mt List.elem_iff.mpr hvalue
    apply ih hrest _ htake
    · rw [← hnames, List.cons_append, namesCommand_of_startsWith hargument hvalue hdash]
    · rw [hfirst.awaited?_eq_none_iff]
      apply hvalue
  | case6 argument arguments hargument hvalue hdash =>
    obtain ⟨-, hrest⟩ := List.ne_and_not_mem_of_not_mem_cons hseparator
    obtain ⟨first, hfirst, htake⟩ := takeAll_cons_eq_ok_iff.mp htake
    have hfirst := taken_of_take hargument hfirst
    have hvalue := mt List.elem_iff.mpr hvalue
    rw [List.cons_append, namesCommand_of_not_startsWith hargument hvalue hdash,
      Option.isSome_iff_exists] at hnames
    obtain ⟨name, hname⟩ := hnames
    use name
    rw [CommandName.word_of_ofWord? hname]
    apply root?_of_takeAll hrest htake
    apply hfirst.root?_eq_of_word hawaited (eq_false_of_ne_true hdash)

/-! ### Before a command -/

/-- Before a command, the reading ends with `stop` at the argument `request`. -/
inductive EndsAt (request : Text) (stop : Stop) : Progress → List Text → Prop
  | here {progress : Progress} {arguments : List Text} (hrequest : progress.OfOption request)
      (h : progress.take .program request = .error stop) :
    EndsAt request stop progress (request :: arguments)
  | later {progress next : Progress} {argument : Text} {arguments : List Text}
      (hargument : progress.OfOption argument)
      (h : progress.take .program argument = .ok next)
      (hrest : EndsAt request stop next arguments) :
    EndsAt request stop progress (argument :: arguments)

namespace EndsAt

variable {request : Text} {stop stop' : Stop}

theorem mem (h : EndsAt request stop progress arguments) :
  request ∈ arguments
  := by
  induction h with
  | here => apply List.mem_cons_self
  | later _ _ _ ih => apply List.mem_cons_of_mem _ ih

theorem readProgram (h : EndsAt request stop progress arguments) :
  progress.readProgram arguments = .error stop
  := by
  induction h with
  | here hrequest h =>
    rw [readProgram_cons hrequest, h]
    rfl
  | later hargument h _ ih =>
    rw [readProgram_cons hargument, h]
    exact ih

theorem exists_take (h : EndsAt request stop progress arguments) :
  ∃ last : Progress, last.OfOption request ∧ last.take .program request = .error stop
  := by
  induction h with
  | here hrequest h => exact ⟨_, hrequest, h⟩
  | later _ _ _ ih => exact ih

/-- After `check`, the reading ends at the same request as without a command. -/
theorem read_check (h : EndsAt request stop progress arguments)
    (hstop : stop.isInformation = true)
    (hrequest : ∀ (last : Progress) (settings : Settings), last.settle = .ok settings →
      last.take .check request = .error stop') :
  progress.read .check arguments = .error stop'
  := by
  induction h with
  | here hargument h =>
    obtain ⟨⟨settings, hsettle⟩, -⟩ := recognises_of_take_eq_error hargument.1 hstop h
    rw [read_cons hargument.1, hrequest _ _ hsettle]
    rfl
  | later hargument h _ ih =>
    rw [read_cons hargument.1, take_check_of_take_program hargument.1 h]
    exact ih

end EndsAt

/-- The reading does not end with an error of usage. -/
def Accepts (progress : Progress) (arguments : List Text) : Prop :=
  ∀ stop, progress.readProgram arguments = .error stop → stop.isInformation = true

theorem not_accepts_nil : ¬ progress.Accepts [] := by
  intro h
  cases (isInformation_withoutCommand progress).symm.trans (h _ rfl)

theorem not_accepts_separator : ¬ progress.Accepts ("--".toList :: arguments) := by
  intro h
  cases (isInformation_readAfterSeparator progress arguments).symm.trans (h _ rfl)

/-- A word that is not awaited has to name a command. -/
theorem isSome_ofWord?_of_accepts
    {argument : Text} (hawaited : progress.awaited? = none) (hword : Shape.of argument = .word)
    (h : progress.Accepts (argument :: arguments)) :
  (CommandName.ofWord? argument).isSome = true
  := by
  rw [Accepts, Progress.readProgram, hword, hawaited] at h
  cases hname : CommandName.ofWord? argument with
  | some name => rfl
  | none =>
    simp only [hname] at h
    cases h _ rfl

/-- Before a command, the reading ends somewhere. -/
def Ends (progress : Progress) (arguments : List Text) : Prop :=
  ∃ request stop, EndsAt request stop progress arguments

theorem Ends.later {argument : Text} (hargument : progress.OfOption argument)
    (h : progress.take .program argument = .ok next) (hrest : next.Ends arguments) :
  progress.Ends (argument :: arguments)
  := by
  obtain ⟨request, stop, hends⟩ := hrest
  use request, stop
  apply EndsAt.later hargument h hends

/-- An argument that belongs to an option either ends the reading or is taken. -/
theorem ends_or_taken {argument : Text} (hargument : progress.OfOption argument)
    (h : progress.Accepts (argument :: arguments)) :
  progress.Ends (argument :: arguments)
    ∨ ∃ next, progress.take .program argument = .ok next ∧ progress.Taken argument next
      ∧ next.Accepts arguments
  := by
  cases htake : progress.take .program argument with
  | error stop =>
    left
    use argument, stop
    apply EndsAt.here hargument htake
  | ok next =>
    right
    use next, rfl, taken_of_take hargument.1 htake
    rw [Accepts, readProgram_cons hargument, htake] at h
    exact h

/-- A reading that does not end with an error of usage comes to the command that the
search finds, or ends at a request before it. -/
theorem namesCommand_or_ends
    (hawaited : progress.awaited? = none) (h : progress.Accepts arguments) :
  namesCommand arguments = true ∨ progress.Ends arguments
  := by
  induction arguments using namesCommand.induct generalizing progress with
  | case1 => cases not_accepts_nil h
  | case2 arguments => cases not_accepts_separator h
  | case3 argument hargument hvalue =>
    have hword := mt not_mem_valueArguments_of_word (not_not_intro (List.elem_iff.mp hvalue))
    rcases ends_or_taken ⟨hargument, .inr hword⟩ h with hends | ⟨next, -, -, h⟩
    · right
      exact hends
    · cases not_accepts_nil h
  | case4 argument hargument hvalue value arguments ih =>
    have hvalue := List.elem_iff.mp hvalue
    have hword := mt not_mem_valueArguments_of_word (not_not_intro hvalue)
    have hname : progress.OfOption argument := ⟨hargument, .inr hword⟩
    rcases ends_or_taken hname h with hends | ⟨first, htake, hfirst, h⟩
    · right
      exact hends
    · have hawaits := mt hfirst.awaited?_eq_none_iff.mp (not_not_intro hvalue)
      have hseparator : value ≠ "--".toList := by
        rintro rfl
        cases not_accepts_separator h
      have hgiven : first.OfOption value := ⟨hseparator, .inl hawaits⟩
      rcases ends_or_taken hgiven h with hends | ⟨second, htake', hsecond, h⟩
      · right
        apply Ends.later hname htake hends
      · rw [namesCommand_of_mem_valueArguments hvalue]
        have hvalue' := not_mem_valueArguments_of_word (hsecond.eq_word_of_awaited? hawaits)
        apply (ih (hsecond.awaited?_eq_none_iff.mpr hvalue') h).imp_right
        intro hends
        apply Ends.later hname htake (hends.later hgiven htake')
  | case5 argument arguments hargument hvalue hdash ih =>
    have hvalue := mt List.elem_iff.mpr hvalue
    by_cases hword : Shape.of argument = .word
    -- A dash alone is no command.
    · obtain ⟨name, hname⟩ :=
        Option.isSome_iff_exists.mp (isSome_ofWord?_of_accepts hawaited hword h)
      rw [← CommandName.word_of_ofWord? hname] at hdash
      cases name <;> cases hdash
    · have hoption : progress.OfOption argument := ⟨hargument, .inr hword⟩
      rcases ends_or_taken hoption h with hends | ⟨next, htake, hnext, h⟩
      · right
        exact hends
      · rw [namesCommand_of_startsWith hargument hvalue hdash]
        apply (ih (hnext.awaited?_eq_none_iff.mpr hvalue) h).imp_right
        apply Ends.later hoption htake
  | case6 argument arguments hargument hvalue hdash =>
    have hword : Shape.of argument = .word := by
      by_contra hword
      apply hdash (Shape.startsWith_of_ne_word hword)
    left
    rw [namesCommand_of_not_startsWith hargument (mt List.elem_iff.mpr hvalue) hdash]
    apply isSome_ofWord?_of_accepts hawaited hword h

end Progress

end JavadocCoverage
