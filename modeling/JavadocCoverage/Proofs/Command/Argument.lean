import Mathlib.Data.List.TakeDrop
import JavadocCoverage.Command.Implicit

/-!
# Reading arguments one at a time

What one argument does to the reading of a scope (`Progress.take`), and all that it can do
(`Progress.Taken`): it is the value that is awaited, or the root, or a name whose value is
awaited from then on, or an option that is complete.

Two facts about the state hold along the way: a value is awaited just after one of the
`valueArguments`, which are the ways to name a parameter that takes a value
(`mem_valueArguments_iff`), and a root that has been given stays
(`Progress.Taken.root?_eq_some`).
-/

namespace JavadocCoverage

/-! ### Results -/

theorem bind_eq_ok_iff
    {ε α β : Type} {x : Except ε α} {f : α → Except ε β} {b : β} :
  x >>= f = .ok b ↔ ∃ a, x = .ok a ∧ f a = .ok b
  := by
  cases x with
  | error e => simp [bind, Except.bind]
  | ok a => simp [bind, Except.bind]

theorem pure_eq_ok_iff {ε α : Type} {a b : α} :
  (pure a : Except ε α) = .ok b ↔ a = b
  := by
  simp [pure, Except.pure]

theorem mapError_eq_ok_iff
    {ε ε' α : Type} {x : Except ε α} {f : ε → ε'} {a : α} :
  x.mapError f = .ok a ↔ x = .ok a
  := by
  cases x with
  | error e => simp [Except.mapError]
  | ok a => simp [Except.mapError]

theorem bind_eq_error_iff
    {ε α β : Type} {x : Except ε α} {f : α → Except ε β} {e : ε} :
  x >>= f = .error e ↔ x = .error e ∨ ∃ a, x = .ok a ∧ f a = .error e
  := by
  cases x with
  | error e => simp [bind, Except.bind]
  | ok a => simp [bind, Except.bind]

/-- Help or the version is what the reading ends with. -/
def Stop.isInformation : Stop → Bool
  | usage _ => false
  | help _ => true
  | version => true

theorem isInformation_of_mapError
    {α : Type} {x : Except UsageError α} {stop : Stop} (h : x.mapError .usage = .error stop) :
  stop.isInformation = false
  := by
  cases x with
  | ok a => cases h
  | error error =>
    cases h
    rfl

/-! ### Forms of arguments -/

namespace Shape

/-- How an argument of each form is written. -/
inductive Fits : Text → Shape → Prop
  | separator : Fits "--".toList separator
  | name (name : Text) : Fits ("--".toList ++ name) (long name none)
  | assignment (name value : Text) :
    Fits ("--".toList ++ name ++ '=' :: value) (long name (some value))
  | letters (letter : Char) (rest : Text) : Fits ('-' :: letter :: rest) (short letter rest)
  | dash : Fits ['-'] word
  | word {argument : Text} (h : Text.startsWith "-".toList argument = false) : Fits argument word

theorem fits_of (argument : Text) :
  Fits argument (of argument)
  := by
  fun_cases of argument with
  | case1 => exact .separator
  | case2 rest _ name hspan =>
    rw [List.span_eq_takeWhile_dropWhile, Prod.mk.injEq] at hspan
    rw [← List.takeWhile_append_dropWhile (p := (· ≠ '=')) (l := rest), hspan.1, hspan.2,
      List.append_nil]
    exact .name name
  | case3 rest _ name c value hspan =>
    rw [List.span_eq_takeWhile_dropWhile, Prod.mk.injEq] at hspan
    have hc := List.head?_dropWhile_not (· ≠ '=') rest
    rw [hspan.2] at hc
    obtain rfl : c = '=' := by simpa using hc
    rw [← List.takeWhile_append_dropWhile (p := (· ≠ '=')) (l := rest), hspan.1, hspan.2]
    exact .assignment name value
  | case4 letter rest => exact .letters letter rest
  | case5 argument _ _ hletter =>
    cases hdash : Text.startsWith "-".toList argument with
    | false => exact .word hdash
    | true =>
      obtain ⟨rest, rfl⟩ := Text.startsWith_iff.mp hdash
      cases rest with
      | nil => exact .dash
      | cons letter rest => cases hletter letter rest rfl

variable {argument : Text}

theorem eq_of_of_eq_separator (h : of argument = separator) :
  argument = "--".toList
  := by
  have hfits := fits_of argument
  rw [h] at hfits
  cases hfits
  rfl

theorem eq_of_of_eq_long_none {name : Text} (h : of argument = long name none) :
  argument = "--".toList ++ name
  := by
  have hfits := fits_of argument
  rw [h] at hfits
  cases hfits
  rfl

theorem eq_of_of_eq_short {letter : Char} {rest : Text} (h : of argument = short letter rest) :
  argument = '-' :: letter :: rest
  := by
  have hfits := fits_of argument
  rw [h] at hfits
  cases hfits
  rfl

/-- All but words start with a dash. -/
theorem startsWith_of_ne_word (h : of argument ≠ word) :
  Text.startsWith "-".toList argument = true
  := by
  generalize hshape : of argument = shape at h
  have hfits := fits_of argument
  rw [hshape] at hfits
  cases hfits with
  | separator => rfl
  | name => rfl
  | assignment => rfl
  | letters => rfl
  | dash => cases h rfl
  | word => cases h rfl

end Shape

/-! ### Names of parameters -/

namespace Parameter

variable {first second : Parameter}

/-- A parameter is known by its name. -/
theorem longName?_inj (h : first.longName? = second.longName?) :
  first = second
  := by
  revert h
  cases first <;> cases second <;> decide

/-- A parameter that has a letter is known by it. -/
theorem letter?_inj (h : first.letter? = second.letter?) (hletter : first.letter? ≠ none) :
  first = second
  := by
  revert h hletter
  cases first <;> cases second <;> decide

theorem takesValue_of_request (h : first = .help ∨ first = .version) :
  first.takesValue = false
  := by
  rcases h with rfl | rfl
  · rfl
  · rfl

end Parameter

namespace Scope

variable {scope : Scope} {parameter : Parameter}

theorem of_ofLongName? {name : Text} (h : scope.ofLongName? name = some parameter) :
  parameter ∈ scope.named ∧ parameter.longName? = some name
  := by
  rw [ofLongName?, List.find?_eq_some_iff_append] at h
  obtain ⟨hname, before, after, hnamed, -⟩ := h
  rw [hnamed]
  use List.mem_append_right before List.mem_cons_self, eq_of_beq hname

theorem of_ofLetter? {letter : Char} (h : scope.ofLetter? letter = some parameter) :
  parameter ∈ scope.named ∧ parameter.letter? = some letter
  := by
  rw [ofLetter?, List.find?_eq_some_iff_append] at h
  obtain ⟨hletter, before, after, hnamed, -⟩ := h
  rw [hnamed]
  use List.mem_append_right before List.mem_cons_self, eq_of_beq hletter

/-- The root is not given by name. -/
theorem ne_root_of_mem_named (h : parameter ∈ scope.named) :
  parameter ≠ .root
  := by
  rintro rfl
  revert h
  cases scope <;> decide

end Scope

/-- The arguments that take the next one as their value are the ways to name a parameter
that takes a value. -/
theorem mem_valueArguments_iff {argument : Text} :
  argument ∈ valueArguments ↔ ∃ parameter : Parameter, parameter.takesValue = true ∧
    ((∃ name ∈ parameter.longName?, Shape.of argument = .long name none)
      ∨ ∃ letter ∈ parameter.letter?, Shape.of argument = .short letter [])
  := by
  constructor
  · intro h
    simp only [valueArguments, List.mem_cons, List.not_mem_nil, or_false] at h
    rcases h with rfl | rfl | rfl | rfl | rfl
    · exact ⟨.logLevel, rfl, .inl ⟨_, rfl, rfl⟩⟩
    · exact ⟨.format, rfl, .inl ⟨_, rfl, rfl⟩⟩
    · exact ⟨.format, rfl, .inr ⟨_, rfl, rfl⟩⟩
    · exact ⟨.output, rfl, .inl ⟨_, rfl, rfl⟩⟩
    · exact ⟨.output, rfl, .inr ⟨_, rfl, rfl⟩⟩
  · rintro ⟨parameter, htakes, ⟨name, hname, hshape⟩ | ⟨letter, hletter, hshape⟩⟩
    · rw [Shape.eq_of_of_eq_long_none hshape]
      cases parameter <;> cases htakes <;> cases hname <;> decide
    · rw [Shape.eq_of_of_eq_short hshape]
      cases parameter <;> cases htakes <;> cases hletter <;> decide

/-! ### What has been given -/

namespace Settings

variable {settings settings' : Settings} {parameter : Parameter} {value : Text}

theorem root_of_give (hparameter : parameter ≠ .root)
    (h : settings.give parameter value = .ok settings') :
  settings'.root = settings.root
  := by
  rw [give] at h
  split at h
  · cases h
  · revert h
    fun_cases withValue settings parameter value <;> grind

theorem root_of_raise (h : settings.raise parameter = .ok settings') :
  settings'.root = settings.root
  := by
  revert h
  fun_cases raise settings parameter <;> grind

/-- A root is given once, and is not empty. -/
theorem give_root_eq_ok_iff :
  settings.give .root value = .ok settings'
    ↔ settings.root = none ∧ value ≠ [] ∧ settings' = { settings with root := some value }
  := by
  cases hroot : settings.root with
  | some root => simp [give, has, hroot]
  | none =>
    cases value with
    | nil => simp [give, withValue, has, hroot]
    | cons c value => simp [give, withValue, has, hroot, eq_comm]

end Settings

/-- The root that has been given or is held. -/
def Progress.root? (progress : Progress) : Option Text :=
  progress.settings.root.or
    (progress.held.bind fun (parameter, value) => if parameter = .root then value else none)

namespace Progress

variable {progress next : Progress} {settings : Settings} {parameter : Parameter}

theorem awaited?_eq_some_iff :
  progress.awaited? = some parameter ↔ progress.held = some (parameter, none)
  := by
  rw [awaited?]
  split
  · simp_all
  · simp_all

/-- A value that is awaited has to come. -/
theorem settle_of_awaited?_eq_some (h : progress.awaited? = some parameter) :
  progress.settle = .error (.usage (.missingValue parameter))
  := by
  rw [settle, awaited?_eq_some_iff.mp h]

theorem awaited?_of_settle (h : progress.settle = .ok settings) :
  progress.awaited? = none
  := by
  cases hawaited : progress.awaited? with
  | none => rfl
  | some parameter =>
    rw [settle_of_awaited?_eq_some hawaited] at h
    cases h

theorem root?_of_settle (h : progress.settle = .ok settings) :
  settings.root = progress.root?
  := by
  revert h
  fun_cases settle progress with
  | case1 hheld =>
    rintro ⟨⟩
    simp [root?, hheld]
  | case2 => rintro ⟨⟩
  | case3 parameter value hheld =>
    intro h
    rw [mapError_eq_ok_iff] at h
    by_cases hparameter : parameter = .root
    · subst hparameter
      obtain ⟨hnone, -, rfl⟩ := Settings.give_root_eq_ok_iff.mp h
      rw [root?, hheld, hnone]
      rfl
    · rw [Settings.root_of_give hparameter h, root?, hheld]
      simp [hparameter]

theorem hasRoot_eq_isSome_root? (h : progress.awaited? = none) :
  progress.hasRoot = progress.root?.isSome
  := by
  obtain ⟨settings, held⟩ := progress
  rcases held with - | ⟨parameter, - | value⟩
  · simp [hasRoot, root?, Settings.has]
  · cases h
  · by_cases hparameter : parameter = .root
    · subst hparameter
      simp [hasRoot, root?, Settings.has]
    · simp [hasRoot, root?, Settings.has, hparameter]

theorem isInformation_of_settle {stop : Stop} (h : progress.settle = .error stop) :
  stop.isInformation = false
  := by
  revert h
  fun_cases settle progress with
  | case1 => rintro ⟨⟩
  | case2 =>
    rintro ⟨⟩
    rfl
  | case3 => exact isInformation_of_mapError

/-! ### One argument -/

/-- The reading after an argument that is not the separator. -/
def take (progress : Progress) (scope : Scope) (argument : Text) : Except Stop Progress :=
  match Shape.of argument with
  | .long name value => progress.takeLong scope name value
  | .short letter rest => progress.takeShort scope letter rest
  | _ => progress.takeWord argument

theorem attached?_eq_none_iff {rest : Text} :
  attached? rest = none ↔ rest = []
  := by
  fun_cases attached? rest <;> simp_all

end Progress

/-- An argument gives a parameter of a scope, with a value or without one. -/
inductive Scope.Recognises (scope : Scope) (argument : Text) : Parameter → Option Text → Prop
  | name {name : Text} {parameter : Parameter} {value : Option Text}
      (hshape : Shape.of argument = .long name value)
      (hname : scope.ofLongName? name = some parameter)
      (hvalue : parameter.takesValue = true ∨ value = none) :
    Recognises scope argument parameter value
  | letter {letter : Char} {rest : Text} {parameter : Parameter}
      (hshape : Shape.of argument = .short letter rest)
      (hletter : scope.ofLetter? letter = some parameter) :
    Recognises scope argument parameter (Progress.attached? rest)

namespace Scope.Recognises

variable {scope : Scope} {argument : Text} {parameter : Parameter} {value : Option Text}

theorem mem_named (h : scope.Recognises argument parameter value) :
  parameter ∈ scope.named
  := by
  cases h with
  | name _ hname => apply (of_ofLongName? hname).1
  | letter _ hletter => apply (of_ofLetter? hletter).1

theorem shape_ne_word (h : scope.Recognises argument parameter value) :
  Shape.of argument ≠ .word
  := by
  intro hword
  cases h with
  | name hshape => cases hword.symm.trans hshape
  | letter hshape => cases hword.symm.trans hshape

/-- An argument that gives a parameter without its value takes the next one. -/
theorem mem_valueArguments_iff (h : scope.Recognises argument parameter value) :
  argument ∈ valueArguments ↔ parameter.takesValue = true ∧ value = none
  := by
  rw [JavadocCoverage.mem_valueArguments_iff]
  cases h with
  | name hshape hname =>
    obtain ⟨-, hname⟩ := of_ofLongName? hname
    constructor
    · rintro ⟨other, htakes, ⟨name, hother, hshape'⟩ | ⟨letter, -, hshape'⟩⟩
      · cases hshape.symm.trans hshape'
        obtain rfl := Parameter.longName?_inj (hname.trans hother.symm)
        use htakes
      · cases hshape.symm.trans hshape'
    · rintro ⟨htakes, rfl⟩
      use parameter, htakes, .inl ⟨_, hname, hshape⟩
  | letter hshape hletter =>
    obtain ⟨-, hletter⟩ := of_ofLetter? hletter
    rw [Progress.attached?_eq_none_iff]
    constructor
    · rintro ⟨other, htakes, ⟨name, -, hshape'⟩ | ⟨letter, hother, hshape'⟩⟩
      · cases hshape.symm.trans hshape'
      · cases hshape.symm.trans hshape'
        obtain rfl := Parameter.letter?_inj (hletter.trans hother.symm) (by simp [hletter])
        use htakes
    · rintro ⟨htakes, rfl⟩
      use parameter, htakes, .inr ⟨_, hletter, hshape⟩

/-- How a parameter without a value is given. -/
theorem spelling_of_flag (h : scope.Recognises argument parameter value)
    (hflag : parameter.takesValue = false) :
  (∃ name, parameter.longName? = some name ∧ argument = "--".toList ++ name)
    ∨ ∃ letter rest, parameter.letter? = some letter ∧ argument = '-' :: letter :: rest
  := by
  cases h with
  | name hshape hname hvalue =>
    obtain ⟨-, hname⟩ := of_ofLongName? hname
    obtain rfl : value = none := by simpa [hflag] using hvalue
    left
    exact ⟨_, hname, Shape.eq_of_of_eq_long_none hshape⟩
  | letter hshape hletter =>
    obtain ⟨-, hletter⟩ := of_ofLetter? hletter
    right
    exact ⟨_, _, hletter, Shape.eq_of_of_eq_short hshape⟩

theorem take_eq (h : scope.Recognises argument parameter value) (progress : Progress) :
  progress.take scope argument
    = if parameter.takesValue then progress.takeValue parameter value
      else progress.takeFlag scope parameter
  := by
  rw [Progress.take]
  cases h with
  | name hshape hname hvalue =>
    simp only [hshape, Progress.takeLong, hname]
    rcases hvalue with htakes | rfl
    · rw [if_pos htakes, if_pos htakes]
    · rfl
  | letter hshape hletter =>
    simp only [hshape, Progress.takeShort, hletter]

end Scope.Recognises

/-- An argument that is not a word gives a parameter, or else nothing comes of it but an
error of usage. -/
theorem Scope.recognises_or_usage {argument : Text} (hargument : argument ≠ "--".toList)
    (hword : Shape.of argument ≠ .word) (scope : Scope) :
  (∃ parameter value, scope.Recognises argument parameter value)
    ∨ ∃ error, ∀ progress : Progress, progress.take scope argument = .error (.usage error)
  := by
  cases hshape : Shape.of argument with
  | separator => cases hargument (Shape.eq_of_of_eq_separator hshape)
  | word => cases hword hshape
  | long name value =>
    cases hname : scope.ofLongName? name with
    | none =>
      right
      use .unknownArgument ("--".toList ++ name)
      intro progress
      simp only [Progress.take, hshape, Progress.takeLong, hname]
    | some parameter =>
      by_cases hvalue : parameter.takesValue = true ∨ value = none
      · left
        use parameter, value, .name hshape hname hvalue
      · obtain ⟨hflag, hgiven⟩ := not_or.mp hvalue
        obtain ⟨text, rfl⟩ := Option.ne_none_iff_exists'.mp hgiven
        right
        use .unwantedValue text parameter
        intro progress
        simp only [Progress.take, hshape, Progress.takeLong, hname, if_neg hflag]
  | short letter rest =>
    cases hletter : scope.ofLetter? letter with
    | none =>
      right
      use .unknownArgument ['-', letter]
      intro progress
      simp only [Progress.take, hshape, Progress.takeShort, hletter]
    | some parameter =>
      left
      use parameter, Progress.attached? rest, .letter hshape hletter

namespace Progress

variable {progress next : Progress} {settings : Settings} {parameter : Parameter}

theorem take_of_word {argument : Text} (h : Shape.of argument = .word) (scope : Scope) :
  progress.take scope argument = progress.takeWord argument
  := by
  rw [take, h]

/-- All that an argument can do to the reading. -/
inductive Taken (progress : Progress) (argument : Text) : Progress → Prop
  /-- The argument is the value that is awaited. -/
  | value {parameter : Parameter} (hword : Shape.of argument = .word)
      (hawaited : progress.awaited? = some parameter) :
    Taken progress argument { progress with held := some (parameter, some argument) }
  /-- The argument is the root. -/
  | root {settings : Settings} (hword : Shape.of argument = .word)
      (hawaited : progress.awaited? = none) (hroot : progress.hasRoot = false)
      (hsettle : progress.settle = .ok settings) :
    Taken progress argument { settings, held := some (.root, some argument) }
  /-- The argument names a parameter, and the next one has to be its value. -/
  | name {settings : Settings} {parameter : Parameter}
      (hdash : Text.startsWith "-".toList argument = true) (hvalue : argument ∈ valueArguments)
      (hsettle : progress.settle = .ok settings) :
    Taken progress argument { settings, held := some (parameter, none) }
  /-- The argument is an option with all that belongs to it. -/
  | option {settings settings' : Settings}
      (hdash : Text.startsWith "-".toList argument = true) (hvalue : argument ∉ valueArguments)
      (hsettle : progress.settle = .ok settings) (hroot : settings'.root = settings.root) :
    Taken progress argument { settings := settings' }

theorem not_mem_valueArguments_of_word {argument : Text} (hword : Shape.of argument = .word) :
  argument ∉ valueArguments
  := by
  rw [mem_valueArguments_iff]
  rintro ⟨parameter, -, ⟨name, -, hshape⟩ | ⟨letter, -, hshape⟩⟩
  · rw [hword] at hshape
    cases hshape
  · rw [hword] at hshape
    cases hshape

theorem takeRoot_eq_ok_iff {word : Text} :
  progress.takeRoot word = .ok next
    ↔ progress.hasRoot = false
      ∧ ∃ settings, progress.settle = .ok settings
        ∧ { settings, held := some (.root, some word) } = next
  := by
  rw [takeRoot]
  cases hroot : progress.hasRoot with
  | true =>
    constructor
    · rintro ⟨⟩
    · rintro ⟨⟨⟩, -⟩
  | false =>
    rw [if_neg Bool.false_ne_true, and_iff_right rfl]
    simp only [bind_eq_ok_iff, pure_eq_ok_iff]

theorem taken_of_takeWord {argument : Text} (hword : Shape.of argument = .word)
    (h : progress.takeWord argument = .ok next) :
  progress.Taken argument next
  := by
  rw [takeWord] at h
  split at h
  next parameter hawaited =>
    cases h
    exact .value hword hawaited
  next hawaited =>
    obtain ⟨hroot, settings, hsettle, rfl⟩ := takeRoot_eq_ok_iff.mp h
    exact .root hword hawaited hroot hsettle

theorem taken_of_recognises
    {scope : Scope} {argument : Text} {value : Option Text}
    (hargument : scope.Recognises argument parameter value)
    (h : progress.take scope argument = .ok next) :
  progress.Taken argument next
  := by
  have hdash := Shape.startsWith_of_ne_word hargument.shape_ne_word
  have hvalue := hargument.mem_valueArguments_iff
  rw [hargument.take_eq] at h
  split at h
  next htakes =>
    obtain ⟨settings, hsettle, h⟩ := bind_eq_ok_iff.mp h
    cases value with
    | none =>
      obtain rfl := pure_eq_ok_iff.mp h
      exact .name hdash (hvalue.mpr ⟨htakes, rfl⟩) hsettle
    | some value =>
      simp only [bind_eq_ok_iff, pure_eq_ok_iff, mapError_eq_ok_iff] at h
      obtain ⟨settings', hgive, rfl⟩ := h
      have hroot := Settings.root_of_give (Scope.ne_root_of_mem_named hargument.mem_named) hgive
      apply Taken.option hdash _ hsettle hroot
      rw [hvalue]
      rintro ⟨-, ⟨⟩⟩
  next htakes =>
    obtain ⟨settings, hsettle, h⟩ := bind_eq_ok_iff.mp h
    split at h
    · cases h
    · cases h
    · simp only [bind_eq_ok_iff, pure_eq_ok_iff, mapError_eq_ok_iff] at h
      obtain ⟨settings', hraise, rfl⟩ := h
      apply Taken.option hdash _ hsettle (Settings.root_of_raise hraise)
      rw [hvalue]
      rintro ⟨htakes', -⟩
      cases htakes htakes'

theorem taken_of_take {scope : Scope} {argument : Text} (hargument : argument ≠ "--".toList)
    (h : progress.take scope argument = .ok next) :
  progress.Taken argument next
  := by
  by_cases hword : Shape.of argument = .word
  · rw [take_of_word hword] at h
    apply taken_of_takeWord hword h
  · rcases scope.recognises_or_usage hargument hword
      with ⟨parameter, value, hgives⟩ | ⟨error, herror⟩
    · apply taken_of_recognises hgives h
    · cases (herror progress).symm.trans h

namespace Taken

variable {argument : Text}

/-- A value is awaited just after an argument that takes the next one as its value. -/
theorem awaited?_eq_none_iff (h : progress.Taken argument next) :
  next.awaited? = none ↔ argument ∉ valueArguments
  := by
  cases h with
  | value hword => exact iff_of_true rfl (not_mem_valueArguments_of_word hword)
  | root hword => exact iff_of_true rfl (not_mem_valueArguments_of_word hword)
  | name hdash hvalue =>
    apply iff_of_false
    · rintro ⟨⟩
    · exact not_not_intro hvalue
  | option hdash hvalue => exact iff_of_true rfl hvalue

/-- Only a word can be the value that is awaited. -/
theorem eq_word_of_awaited? (h : progress.Taken argument next)
    (hawaited : progress.awaited? ≠ none) :
  Shape.of argument = .word
  := by
  cases h with
  | value hword => exact hword
  | root hword => exact hword
  | name hdash hvalue hsettle => cases hawaited (awaited?_of_settle hsettle)
  | option hdash hvalue hsettle => cases hawaited (awaited?_of_settle hsettle)

/-- A root that has been given stays. -/
theorem root?_eq_some {root : Text} (h : progress.Taken argument next)
    (hroot : progress.root? = some root) :
  next.root? = some root
  := by
  cases h with
  | value hword hawaited =>
    rw [root?, awaited?_eq_some_iff.mp hawaited] at hroot
    have hgiven : progress.settings.root = some root := by simpa using hroot
    rw [root?, hgiven, Option.some_or]
  | root hword hawaited hnone hsettle =>
    rw [hasRoot_eq_isSome_root? hawaited, hroot] at hnone
    cases hnone
  | name hdash hvalue hsettle =>
    rw [root?, root?_of_settle hsettle, hroot, Option.some_or]
  | option hdash hvalue hsettle hkept =>
    rw [root?, hkept, root?_of_settle hsettle, hroot, Option.some_or]

/-- A word that is not awaited is the root. -/
theorem root?_eq_of_word (h : progress.Taken argument next) (hawaited : progress.awaited? = none)
    (hdash : Text.startsWith "-".toList argument = false) :
  next.root? = some argument
  := by
  cases h with
  | value hword hawaited' =>
    rw [hawaited] at hawaited'
    cases hawaited'
  | root hword _ hroot hsettle =>
    rw [hasRoot_eq_isSome_root? hawaited, ← root?_of_settle hsettle,
      Option.isSome_eq_false_iff, Option.isNone_iff_eq_none] at hroot
    rw [root?, hroot]
    rfl
  | name hdash' =>
    rw [hdash] at hdash'
    cases hdash'
  | option hdash' =>
    rw [hdash] at hdash'
    cases hdash'

end Taken

end Progress

end JavadocCoverage
