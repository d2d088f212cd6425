import JavadocCoverage.Text.Utf8

/-!
# Control sequences

The sequences of characters by which a terminal is controlled, and what is left of a
text when they and the other control characters are taken out.  `Control.State` is
the place within a sequence; a text is read from outside of all sequences.
-/

namespace JavadocCoverage

namespace Control

/-- The places within a control sequence. -/
inductive State
  /-- Outside of all sequences. -/
  | ground
  /-- After the escape character. -/
  | escape
  /-- After the escape character and some intermediate characters. -/
  | intermediate
  /-- In a sequence that a final character ends. -/
  | parameters
  /-- At the start of a device control string. -/
  | deviceStart
  /-- In the parameters of a device control string. -/
  | deviceParameters
  /-- In the intermediate characters of a device control string. -/
  | deviceIntermediate
  /-- In a control string. -/
  | string
  /-- In an operating system command. -/
  | command
deriving DecidableEq, Repr

/-- `c` is a blank that is shown also within a sequence: tab, line feed, form feed or
carriage return. -/
def isBlank (c : Char) : Bool :=
  c = '\t' || c = '\n' || c = '\x0c' || c = '\r'

/-- `c` is one of the control characters of ASCII. -/
def isControl (c : Char) : Bool :=
  c.toNat < 0x20 || c.toNat = 0x7F

namespace State

/-- The character is shown where it stands. -/
def shows (state : State) (c : Char) : Bool :=
  match state with
  | ground => isBlank c || !isControl c
  | escape => isBlank c
  | intermediate => isBlank c
  | parameters => isBlank c
  | _ => false

/-- The place after a printable character of ASCII. -/
def afterPrintable (state : State) (c : Char) : State :=
  match state with
  | ground => ground
  | escape =>
    if c < '0' then intermediate
    else if c = '[' then parameters
    else if c = ']' then command
    else if c = 'P' then deviceStart
    else if c = 'X' ∨ c = '^' ∨ c = '_' then string
    else ground
  | intermediate => if c < '0' then intermediate else ground
  | parameters => if c < '@' then parameters else ground
  | deviceStart =>
    if c < '0' then deviceIntermediate else if c < '@' then deviceParameters else string
  | deviceParameters =>
    if c < '0' then deviceIntermediate else if c < '<' then deviceParameters else string
  | deviceIntermediate => if c < '0' then deviceIntermediate else string
  | string => string
  | command => command

/-- The place after a control character of ASCII.  The escape character starts a
sequence everywhere; cancel and substitute end one; the bell ends a command. -/
def afterControl (state : State) (c : Char) : State :=
  if c = '\x1b' then escape
  else if c = '\x18' ∨ c = '\x1a' then ground
  else if c = '\x07' ∧ state = command then ground
  else state

/-- The place after a character beyond ASCII.  A control string ends at one whose
encoding has the octet of the string terminator. -/
def afterOther (state : State) (c : Char) : State :=
  if state = string ∧ (Utf8.encode [c]).elem 0x9C then ground else state

/-- The place after a character. -/
def after (state : State) (c : Char) : State :=
  if c.toNat ≥ 0x80 then state.afterOther c
  else if isControl c then state.afterControl c
  else state.afterPrintable c

end State

/-- The media on which texts are shown.  A sequence within which a blank was shown is
over in a message; on a stream it goes on after the run of characters shown. -/
inductive Medium
  | message
  | stream
deriving DecidableEq, Repr

/-- What is shown of a text from a place within a sequence.  In a run of characters
that are shown, each is taken as outside of all sequences. -/
def shownFrom (medium : Medium) (state : State) (inRun : Bool) : Text → Text
  | [] => []
  | c :: rest =>
    if (if inRun then State.ground else state).shows c then
      let resumed := if medium = .stream ∧ c.toNat < 0x80 then state else .ground
      c :: shownFrom medium resumed true rest
    else shownFrom medium (state.after c) false rest

/-- What is shown of a text. -/
def shown (medium : Medium) (text : Text) : Text :=
  shownFrom medium .ground false text

end Control

end JavadocCoverage
