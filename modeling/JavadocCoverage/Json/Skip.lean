import JavadocCoverage.Json.Lexeme

/-!
# Skipping values

The reading of a JSON value of any form whose content does not matter.  A surrogate
may stand alone within it, and a number may be of any size.
-/

namespace JavadocCoverage

namespace Json

mutual

/-- Skips one value.  Each step down takes one unit of fuel. -/
def skipValueWith : Nat → Text → Except Fault Text
  | 0, _ => .error .malformed
  | fuel + 1, text =>
    match skipSpace text with
    | [] => .error .truncated
    | '"' :: rest => (readString false [] rest).map (·.2)
    | '[' :: rest =>
      match skipSpace rest with
      | [] => .error .truncated
      | ']' :: rest => .ok rest
      | rest => skipElementsWith fuel rest
    | '\x7b' :: rest =>
      match skipSpace rest with
      | [] => .error .truncated
      | '\x7d' :: rest => .ok rest
      | rest => skipMembersWith fuel rest
    | 'n' :: rest => readWord "ull".toList rest
    | 't' :: rest => readWord "rue".toList rest
    | 'f' :: rest => readWord "alse".toList rest
    | c :: rest =>
      if startsNumber c then (readNumeral .malformed (c :: rest)).map (·.2)
      else .error .malformed

/-- Skips the elements of an array, from one of them to the closing bracket. -/
def skipElementsWith : Nat → Text → Except Fault Text
  | 0, _ => .error .malformed
  | fuel + 1, text =>
    match skipValueWith fuel text with
    | .error fault => .error fault
    | .ok rest =>
      match skipSpace rest with
      | [] => .error .truncated
      | ',' :: rest => skipElementsWith fuel rest
      | ']' :: rest => .ok rest
      | _ => .error .malformed

/-- Skips the members of an object, from one of them to the closing brace. -/
def skipMembersWith : Nat → Text → Except Fault Text
  | 0, _ => .error .malformed
  | fuel + 1, text =>
    match skipSpace text with
    | [] => .error .truncated
    | '"' :: rest =>
      match readString false [] rest with
      | .error fault => .error fault
      | .ok (_, rest) =>
        match readMark ':' rest with
        | .error fault => .error fault
        | .ok rest =>
          match skipValueWith fuel rest with
          | .error fault => .error fault
          | .ok rest =>
            match skipSpace rest with
            | [] => .error .truncated
            | ',' :: rest => skipMembersWith fuel rest
            | '\x7d' :: rest => .ok rest
            | _ => .error .malformed
    | _ => .error .malformed

end

/-- Skips one value.  Two steps down at most are taken for each character. -/
def skipValue (text : Text) : Except Fault Text :=
  skipValueWith (2 * text.length + 1) text

end Json

end JavadocCoverage
