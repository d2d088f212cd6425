import JavadocCoverage.Text.Basic

/-!
# White space

The characters with the property White_Space, blank texts, and `trim`, which
removes white space from both ends of a text.
-/

namespace JavadocCoverage

namespace Text

/-- `c` has the property White_Space: tab to carriage return, space, next line,
no-break space, ogham space mark, the spaces U+2000 to U+200A, the line and
paragraph separators, narrow no-break space, mathematical space and ideographic
space. -/
def isWhiteSpace (c : Char) : Bool :=
  let n := c.toNat
  (0x09 ≤ n && n ≤ 0x0D) || n == 0x20 || n == 0x85 || n == 0xA0 || n == 0x1680
    || (0x2000 ≤ n && n ≤ 0x200A) || n == 0x2028 || n == 0x2029 || n == 0x202F
    || n == 0x205F || n == 0x3000

/-- The text without the white space it starts with. -/
def trimStart (text : Text) : Text :=
  text.dropWhile isWhiteSpace

/-- The text without the white space it ends in. -/
def trimEnd (text : Text) : Text :=
  (text.reverse.dropWhile isWhiteSpace).reverse

/-- The text without the white space at its two ends. -/
def trim (text : Text) : Text :=
  trimEnd (trimStart text)

/-- The text holds white space only. -/
def isBlank (text : Text) : Bool :=
  text.all isWhiteSpace

/-! ### White space put at the ends -/

theorem trimStart_append_of_isBlank
    {padding : Text} (h : isBlank padding = true) (text : Text) :
  trimStart (padding ++ text) = trimStart text
  := List.dropWhile_append_of_pos (List.all_eq_true.mp h)

theorem trimEnd_append_of_isBlank
    {padding : Text} (h : isBlank padding = true) (text : Text) :
  trimEnd (text ++ padding) = trimEnd text
  := by
  have hreverse : ∀ c ∈ padding.reverse, isWhiteSpace c = true := by
    intro c hc
    apply List.all_eq_true.mp h c (List.mem_reverse.mp hc)
  rw [trimEnd, trimEnd, List.reverse_append, List.dropWhile_append_of_pos hreverse]

/-- White space behind a text is trimmed off, also where the text is blank itself, so that
all of it goes from the start. -/
theorem trim_append_of_isBlank
    {padding : Text} (h : isBlank padding = true) (text : Text) :
  trim (text ++ padding) = trim text
  := by
  rw [trim, trim, trimStart, List.dropWhile_append]
  split
  next hblank =>
    have htext : trimStart text = [] := List.isEmpty_iff.mp hblank
    have hpadding := trimStart_append_of_isBlank h []
    rw [List.append_nil] at hpadding
    change trimEnd (trimStart padding) = trimEnd (trimStart text)
    rw [htext, hpadding]
    rfl
  next =>
    apply trimEnd_append_of_isBlank h

/-- White space on both sides of a text is trimmed off. -/
theorem trim_padded
    {before after : Text} (hbefore : isBlank before = true) (hafter : isBlank after = true)
    (text : Text) :
  trim (before ++ (text ++ after)) = trim text
  := by
  rw [trim, trimStart_append_of_isBlank hbefore]
  apply trim_append_of_isBlank hafter

end Text

end JavadocCoverage
