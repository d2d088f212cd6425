import JavadocCoverage.Pattern.Atom

/-!
# Classes of characters

The classes that a pattern writes in brackets.  A class is read to its end, and its
depth is given: how many classes, unions and operations lie within one another.
-/

namespace JavadocCoverage

namespace Pattern

/-- The depth of what holds parts of the given depths side by side: a part that is
alone counts as itself. -/
def depthOfParts : List Nat → Nat
  | [] => 0
  | [depth] => depth
  | depths => depths.foldl max 0 + 1

/-- A class that is being read: it is negated or not, the depth of what stands before
the last operator, and the depths of the members after it. -/
structure OpenClass where
  isNegated : Bool := false
  left : Option Nat := none
  members : List Nat := []

namespace OpenClass

/-- The class with one more member. -/
def add (depth : Nat) (current : OpenClass) : OpenClass :=
  { current with members := depth :: current.members }

/-- The depth of what has been read. -/
def depth (current : OpenClass) : Nat :=
  match current.left with
  | none => depthOfParts current.members
  | some left => max left (depthOfParts current.members) + 1

/-- The class after an operator. -/
def operate (current : OpenClass) : OpenClass :=
  { current with left := some current.depth, members := [] }

end OpenClass

/-- Reads the dashes that a class may start with.  They are members of it. -/
def readDashes (flags : Flags) (current : OpenClass) : Nat → Text → OpenClass × Text
  | fuel + 1, '-' :: rest => readDashes flags (current.add 0) fuel (flags.skipSpace rest)
  | _, text => (current, text)

/-- Reads the start of a class after its bracket: the sign of negation, then dashes, or
else a closing bracket that is a member.  A class with such members may stand where a
character of ASCII may stand in it. -/
def openClass (flags : Flags) (text : Text) : Option (OpenClass × Text) :=
  let text := flags.skipSpace text
  let (isNegated, text) :=
    match text with
    | '^' :: rest => (true, flags.skipSpace rest)
    | _ => (false, text)
  let (current, text) := readDashes flags ⟨isNegated, none, []⟩ text.length text
  let (current, text) :=
    match current.members, text with
    | [], ']' :: rest => (current.add 0, flags.skipSpace rest)
    | _, _ => (current, text)
  if current.members.isEmpty || (Atom.literal '-' false).mayStandInClass flags then
    some (current, text)
  else none

/-- The names of classes of ASCII. -/
def asciiClasses : List Text :=
  ["alnum", "alpha", "ascii", "blank", "cntrl", "digit", "graph", "lower", "print", "punct",
    "space", "upper", "word", "xdigit"].map String.toList

/-- Reads a class of ASCII after its first bracket: whether it is negated, and the
rest. -/
def readAsciiClass? : Text → Option (Bool × Text)
  | ':' :: '^' :: rest => (readName? rest).map (true, ·)
  | ':' :: rest => (readName? rest).map (false, ·)
  | _ => none
where
  /-- Reads the name of a class of ASCII and the marks after it. -/
  readName? (text : Text) : Option Text :=
    match text.span (· ≠ ':') with
    | (name, ':' :: ']' :: rest) => if asciiClasses.elem name then some rest else none
    | _ => none

/-- Reads one end of a range in a class. -/
def readRangeEnd (flags : Flags) : Text → Option (Atom × Text)
  | [] => none
  | '\\' :: rest => readEscape flags rest
  | c :: rest => some (.literal c false, rest)

/-- Reads an atom or a range in a class.  A dash is the sign of a range unless it comes
before a closing bracket or another dash. -/
def readRange (flags : Flags) (text : Text) : Option Text := do
  let (low, rest) ← readRangeEnd flags text
  match flags.skipSpace rest with
  | [] => none
  | c :: rest =>
    if c ≠ '-' || [some ']', some '-'].elem (flags.next? rest) then
      if low.mayStandInClass flags then return c :: rest else none
    else
      let (high, rest) ← readRangeEnd flags (flags.skipSpace rest)
      if low.mayEndRange flags high then return rest else none

/-- The class may stand: one that is negated holds characters beyond ASCII, which only a
pattern of characters may match. -/
def OpenClass.mayStand (flags : Flags) (current : OpenClass) : Bool :=
  flags.isUnicode || !current.isNegated

/-- A class of ASCII may stand in a class: a negated one only in a pattern of
characters. -/
def asciiClassMayStand (flags : Flags) (isNegated : Bool) : Bool :=
  if flags.isUnicode then !flags.ignoresCase else !isNegated

/-- Reads a class to its end, where the classes around it are given, the nearest first:
its depth, and the rest.  Each step takes one unit of fuel. -/
def readClassWith (flags : Flags) :
    Nat → List OpenClass → OpenClass → Text → Option (Nat × Text)
  | 0, _, _, _ => none
  | fuel + 1, outer, current, text =>
    match flags.skipSpace text with
    | [] => none
    | '[' :: rest =>
      match readAsciiClass? rest with
      | some (isNegated, rest) =>
        if asciiClassMayStand flags isNegated then
          readClassWith flags fuel outer (current.add 0) rest
        else none
      | none => do
        let (inner, rest) ← openClass flags rest
        readClassWith flags fuel (current :: outer) inner rest
    | ']' :: rest =>
      if !current.mayStand flags then none
      else
        match outer with
        | [] => some (current.depth + 1, rest)
        | parent :: outer =>
          readClassWith flags fuel outer (parent.add (current.depth + 1)) rest
    | '&' :: '&' :: rest => readClassWith flags fuel outer current.operate rest
    | '-' :: '-' :: rest => readClassWith flags fuel outer current.operate rest
    | '~' :: '~' :: rest => readClassWith flags fuel outer current.operate rest
    | text => do readClassWith flags fuel outer (current.add 0) (← readRange flags text)

/-- Reads a class after its first bracket: its depth, and the rest. -/
def readClass (flags : Flags) (text : Text) : Option (Nat × Text) := do
  let (current, rest) ← openClass flags text
  readClassWith flags (rest.length + 1) [] current rest

end Pattern

end JavadocCoverage
