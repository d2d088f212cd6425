/-!
# Texts

The type `Text` of texts, as lists of characters, and the type `Bytes` of octet
sequences; and the test `occursIn` whether one text lies within another.
`occursIn_iff` reads the test as `<:+:`.
-/

namespace JavadocCoverage

/-- A text, as the list of its characters. -/
abbrev Text := List Char

/-- A sequence of octets. -/
abbrev Bytes := List UInt8

namespace Text

/-- `pattern` lies somewhere within the text. -/
def occursIn (pattern : Text) : Text → Bool
  | [] => pattern.isEmpty
  | c :: text => pattern.isPrefixOf (c :: text) || occursIn pattern text

theorem occursIn_iff
    {pattern text : Text} :
  occursIn pattern text = true ↔ pattern <:+: text
  := by
  induction text with
  | nil => simp [occursIn]
  | cons c text ih =>
    rw [occursIn, Bool.or_eq_true, ih, List.isPrefixOf_iff_prefix, List.infix_cons_iff]

/-- The text ends in `ending`. -/
def endsIn (ending text : Text) : Bool :=
  ending.isSuffixOf text

theorem endsIn_iff
    {ending text : Text} :
  endsIn ending text = true ↔ ending <:+ text
  := List.isSuffixOf_iff_suffix

/-- The text starts with `beginning`. -/
def startsWith (beginning text : Text) : Bool :=
  beginning.isPrefixOf text

theorem startsWith_iff
    {beginning text : Text} :
  startsWith beginning text = true ↔ beginning <+: text
  := List.isPrefixOf_iff_prefix

end Text

end JavadocCoverage
