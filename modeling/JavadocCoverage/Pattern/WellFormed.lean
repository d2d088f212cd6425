import JavadocCoverage.Pattern.Class
import JavadocCoverage.Text.Alphanumeric

/-!
# Well-formed patterns

Which texts are patterns: `isPattern` reads alternatives, groups and repetitions, and
checks of each atom and class that it may stand.  Patterns are written in braces, so
that none holds a closing brace, and with it a number of repetitions.
-/

namespace JavadocCoverage

namespace Pattern

/-- How many groups, classes, repetitions, rows and alternatives may lie within one
another. -/
def depthLimit : Nat := 250

/-- A group that is being read: the flags in force, the depths of its alternatives so
far, and the depths of the items of the current one, last first.  An item without depth
is a setting of flags, which cannot be repeated. -/
structure OpenGroup where
  flags : Flags := {}
  alternatives : List Nat := []
  items : List (Option Nat) := []

namespace OpenGroup

/-- The group with one more item. -/
def add (depth : Nat) (group : OpenGroup) : OpenGroup :=
  { group with items := some depth :: group.items }

/-- The group with its last item repeated. -/
def repeatLast? (group : OpenGroup) : Option OpenGroup :=
  match group.items with
  | some depth :: items => some { group with items := some (depth + 1) :: items }
  | _ => none

/-- The depths of the alternatives, the current one first. -/
def allAlternatives (group : OpenGroup) : List Nat :=
  depthOfParts (group.items.map (·.getD 0)) :: group.alternatives

/-- The group after a bar. -/
def alternate (group : OpenGroup) : OpenGroup :=
  { group with alternatives := group.allAlternatives, items := [] }

/-- The depth of what the group holds. -/
def depth (group : OpenGroup) : Nat :=
  depthOfParts group.allAlternatives

end OpenGroup

/-- The state of reading: the groups around the current one, the nearest first, the
current one, and the names of groups so far. -/
structure Progress where
  outer : List OpenGroup := []
  current : OpenGroup := {}
  names : List Text := []

/-- A name of a group. -/
def isGroupName : Text → Bool
  | [] => false
  | c :: name =>
    (c = '_' || Text.isAlphabetic c)
      && name.all fun c => ['_', '.', '[', ']'].elem c || Text.isAlphanumeric c

namespace Progress

/-- The state within a new group. -/
def enter (flags : Flags) (progress : Progress) : Progress :=
  { progress with outer := progress.current :: progress.outer, current := { flags } }

/-- The state after the end of a group. -/
def leave? (progress : Progress) : Option Progress :=
  match progress.outer with
  | [] => none
  | parent :: outer =>
    some { progress with outer, current := parent.add (progress.current.depth + 1) }

/-- The state with a change of the current group. -/
def change (f : OpenGroup → OpenGroup) (progress : Progress) : Progress :=
  { progress with current := f progress.current }

/-- Reads the name of a group, up to the angle bracket after it. -/
def readName (progress : Progress) (text : Text) : Option (Progress × Text) :=
  match text.span (· ≠ '>') with
  | (name, _ :: rest) =>
    if isGroupName name && !progress.names.elem name then
      some ({ progress.enter progress.current.flags with names := name :: progress.names }, rest)
    else none
  | _ => none

/-- Reads what follows an opening parenthesis and belongs to it: the name of a group,
or flags, which hold in a group or from there on. -/
def readOpening (progress : Progress) (text : Text) : Option (Progress × Text) :=
  let flags := progress.current.flags
  match flags.skipSpace text with
  | '?' :: 'P' :: '<' :: rest => progress.readName rest
  | '?' :: '<' :: rest => progress.readName rest
  | '?' :: rest => do
    let (run, mark, rest) ← readFlags { flags } rest
    if mark = ':' then return (progress.enter run.flags, rest)
    else if run.letters.isEmpty then none
    else
      let set (group : OpenGroup) : OpenGroup :=
        { group with flags := run.flags, items := none :: group.items }
      return (progress.change set, rest)
  | rest => some (progress.enter flags, rest)

/-- The text is the rest of a pattern.  Each step takes one unit of fuel. -/
def acceptsWith : Nat → Progress → Text → Bool
  | 0, _, _ => false
  | fuel + 1, progress, text =>
    let flags := progress.current.flags
    match flags.skipSpace text with
    | [] => progress.outer.isEmpty && progress.current.depth ≤ depthLimit
    | '(' :: rest =>
      (progress.readOpening rest).any fun (progress, rest) => acceptsWith fuel progress rest
    | ')' :: rest => progress.leave?.any (acceptsWith fuel · rest)
    | '|' :: rest => acceptsWith fuel (progress.change (·.alternate)) rest
    | '[' :: rest =>
      (readClass flags rest).any fun (depth, rest) =>
        acceptsWith fuel (progress.change (·.add depth)) rest
    | '\x7b' :: _ => false
    | c :: rest =>
      if c = '?' ∨ c = '*' ∨ c = '+' then
        let rest := if rest.head? = some '?' then rest.drop 1 else rest
        progress.current.repeatLast?.any fun current =>
          acceptsWith fuel { progress with current } rest
      else
        (readAtom flags (c :: rest)).any fun (atom, rest) =>
          atom.mayStand flags && acceptsWith fuel (progress.change (·.add 0)) rest

end Progress

end Pattern

/-- The text is a pattern.  Each step of reading takes a character at least. -/
def isPattern (text : Text) : Bool :=
  Pattern.Progress.acceptsWith (text.length + 1) {} text

end JavadocCoverage
