import JavadocCoverage.Text.Utf8

/-!
# Paths

Paths as octet sequences, with a slash between their segments.  An empty segment
and the segment `.` are idle: they lead nowhere.
-/

namespace JavadocCoverage

/-- A path. -/
abbrev Path := Bytes

/-- The name of an entry of a directory. -/
abbrev Name := Bytes

/-- The path that a text spells. -/
def Path.ofText (text : Text) : Path :=
  Utf8.encode text

namespace Path

/-- The octet between segments. -/
def slash : UInt8 := 0x2F

/-- The segment for the directory itself. -/
def here : Name := [0x2E]

/-- The segment for the directory above. -/
def up : Name := [0x2E, 0x2E]

/-- The path as it is shown to a reader. -/
def render (path : Path) : Text :=
  Utf8.decode path

/-- What stands before, between and after the slashes of a path. -/
def segments (path : Path) : List Name :=
  path.splitOn slash

/-- The path with the given segments. -/
def ofSegments (segments : List Name) : Path :=
  [slash].intercalate segments

/-- The segment leads nowhere. -/
def isIdle (segment : Name) : Bool :=
  segment.isEmpty || segment == here

/-- The path starts at the top directory. -/
def isAbsolute (path : Path) : Bool :=
  path.head? == some slash

/-- The path ends in a slash. -/
def endsInSlash (path : Path) : Bool :=
  path.getLast? == some slash

/-- The last segment that is not idle, unless it leads upward. -/
def fileName? (path : Path) : Option Name :=
  match path.segments.reverse.dropWhile isIdle with
  | [] => none
  | name :: _ => if name = up then none else some name

/-- What stands before the last segment that is not idle, without idle segments at
its end.  It is empty when that segment is the only one. -/
def parent (path : Path) : Path :=
  let above := ((path.segments.reverse.dropWhile isIdle).drop 1).dropWhile isIdle
  ofSegments above.reverse

/-- The entry `name` of the directory at `path`. -/
def join (path : Path) (name : Name) : Path :=
  if path.isEmpty || path.endsInSlash then path ++ name else path ++ slash :: name

/-- The ending of the names of sources. -/
def sourceEnding : Text := ".java".toList

/-- The path names a source: the last segment, as a text, has the ending of
sources. -/
def isSource (path : Path) : Bool :=
  path.fileName?.any fun name => Text.endsIn sourceEnding (Utf8.decode name)

end Path

end JavadocCoverage
