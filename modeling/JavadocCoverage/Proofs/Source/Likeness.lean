import JavadocCoverage.Proofs.Source.Findings
import JavadocCoverage.Proofs.Text.Likeness

/-!
# Sources that are alike

A scan reads only ASCII and white space: in sources that are alike the same lines have
findings, of the same kinds, and the statistics of comments are the same
(`checkText_alike`).  All words that a scan looks for are plain, so that its tests give
the same on lines that are alike; the rest follows line by line.
-/

namespace JavadocCoverage

open Text

/-! ### One line -/

theorem opensComment_alike
    {s t : Text} (h : Alike s t) :
  opensComment s = opensComment t
  := h.startsWith_eq (by decide)

theorem closesComment_alike
    {s t : Text} (h : Alike s t) :
  closesComment s = closesComment t
  := h.endsIn_eq (by decide)

theorem isTransparent_alike
    {s t : Text} (h : Alike s t) :
  isTransparent s = isTransparent t
  := by
  rw [isTransparent, isTransparent, h.isEmpty_eq, isAnnotation, isAnnotation,
    h.startsWith_eq (by decide)]

theorem isTypeDeclaration_alike
    {s t : Text} (h : Alike s t) :
  isTypeDeclaration s = isTypeDeclaration t
  := by
  have hwords : ∀ word ∈ typeWords, ∀ c ∈ word, IsPlain c := by decide
  have hany : typeWords.any (occursIn · s) = typeWords.any (occursIn · t) := by
    rw [Bool.eq_iff_iff, List.any_eq_true, List.any_eq_true]
    constructor
    · rintro ⟨word, hmem, hoccurs⟩
      use word, hmem
      rw [← h.occursIn_eq (hwords word hmem), hoccurs]
    · rintro ⟨word, hmem, hoccurs⟩
      use word, hmem
      rw [h.occursIn_eq (hwords word hmem), hoccurs]
  rw [isTypeDeclaration, isTypeDeclaration, hany, h.occursIn_eq (by decide)]

theorem isMethodDeclaration_alike
    {s t : Text} (h : Alike s t) :
  isMethodDeclaration s = isMethodDeclaration t
  := by
  have hvisible : ∀ c ∈ visibilityWord, IsPlain c := by decide
  have hnew : ∀ c ∈ "new ".toList, IsPlain c := by decide
  unfold isMethodDeclaration
  rw [h.occursIn_eq hvisible, h.elem_eq (c := '(') (by decide), h.elem_eq (c := ')') (by decide),
    h.elem_eq (c := '\x7b') (by decide), h.occursIn_eq hnew, h.elem_eq (c := '=') (by decide)]

theorem declarationKinds_alike
    {s t : Text} (h : Alike s t) :
  declarationKinds s = declarationKinds t
  := by
  apply List.filter_congr
  intro kind _
  cases kind with
  | type => apply isTypeDeclaration_alike h
  | method => apply isMethodDeclaration_alike h

/-! ### Many lines -/

/-- Where a finding is and of which kind, without its text. -/
def Finding.spot (finding : Finding) : DeclarationKind × Nat :=
  (finding.kind, finding.line)

theorem isDocumented_cons_alike
    {above above' : List Text} (habove : isDocumented above = isDocumented above') {s t : Text}
    (h : Alike s t) :
  isDocumented (s :: above) = isDocumented (t :: above')
  := by
  rw [isDocumented_cons, isDocumented_cons, documentedBelow, documentedBelow, habove,
    isTransparent_alike h, closesComment_alike h]

theorem lineFindings_alike
    {above above' : List Text} (habove : isDocumented above = isDocumented above') (number : Nat)
    {s t : Text} (h : Alike s t) :
  (lineFindings above number s).map Finding.spot
    = (lineFindings above' number t).map Finding.spot
  := by
  rw [lineFindings_eq, lineFindings_eq, habove, declarationKinds_alike h]
  split
  · rfl
  · rw [List.map_map, List.map_map]
    rfl

theorem findingsFrom_alike
    {above above' : List Text} (habove : isDocumented above = isDocumented above') (number : Nat)
    {lines lines' : List Text} (h : List.Forall₂ Alike lines lines') :
  (findingsFrom above number lines).map Finding.spot
    = (findingsFrom above' number lines').map Finding.spot
  := by
  induction h generalizing above above' number with
  | nil => rfl
  | cons hline _ ih =>
    rw [findingsFrom, findingsFrom, List.map_append, List.map_append,
      lineFindings_alike habove number hline, ih (isDocumented_cons_alike habove hline)]

theorem CommentSpans.next_alike
    (spans : CommentSpans) (index : Nat) {s t : Text} (h : Alike s t) :
  spans.next index s = spans.next index t
  := by
  rw [next, next, opensComment_alike h, closesComment_alike h]

theorem CommentSpans.after_alike
    (spans : CommentSpans) (index : Nat) {lines lines' : List Text}
    (h : List.Forall₂ Alike lines lines') :
  spans.after index lines = spans.after index lines'
  := by
  induction h generalizing spans index with
  | nil => rfl
  | cons hline _ ih => rw [after, after, next_alike spans index hline, ih]

/-- The trimmed lines of texts that are alike are alike. -/
theorem trimmedLines_alike
    {s t : Text} (h : Alike s t) :
  List.Forall₂ Alike ((splitLines s).map Text.trim) ((splitLines t).map Text.trim)
  := by
  rw [List.forall₂_map_left_iff, List.forall₂_map_right_iff]
  apply h.splitLines.imp
  intro line line' hline
  apply hline.trim

/-- In texts that are alike the findings are of the same kinds on the same lines, and the
comments are the same. -/
theorem checkText_alike
    {s t : Text} (h : Alike s t) :
  (checkText s).map Finding.spot = (checkText t).map Finding.spot ∧
    (scanLines (splitLines s)).docComments = (scanLines (splitLines t)).docComments ∧
    (scanLines (splitLines s)).lastCommentEnd = (scanLines (splitLines t)).lastCommentEnd ∧
    (scanLines (splitLines s)).unterminatedComment
      = (scanLines (splitLines t)).unterminatedComment
  := by
  have hlines := trimmedLines_alike h
  have hspans := CommentSpans.after_alike {} 0 hlines
  use findingsFrom_alike rfl 1 hlines, congrArg CommentSpans.closed hspans,
    congrArg CommentSpans.lastEnd hspans
  apply congrArg CommentSpans.isOpen hspans

/-- A source with one word in a comment and another in the name of a class. -/
def sourceWith (comment name : Text) : Text :=
  "/** Caf".toList ++ (comment ++ (" */\r\nclass A\rpublic class ".toList
    ++ (name ++ " \x7b\n\tpublic void go() \x7b".toList)))

/-- The class and its method are found as well where the words beyond ASCII are broken. -/
theorem checkText_alike_sourceWith :
  Alike (sourceWith "é".toList "Äß".toList)
      (sourceWith "\uFFFD\uFFFD".toList "\uFFFD".toList) ∧
    (checkText (sourceWith "\uFFFD\uFFFD".toList "\uFFFD".toList)).map Finding.spot
      = [(.type, 3), (.method, 4)] ∧
    (scanLines (splitLines (sourceWith "\uFFFD\uFFFD".toList "\uFFFD".toList))).lastCommentEnd
      = some 0
  := by
  have halike : Alike (sourceWith "é".toList "Äß".toList)
      (sourceWith "\uFFFD\uFFFD".toList "\uFFFD".toList) := by
    apply Alike.word (by decide)
    apply Alike.runs (by decide) (by decide) (by decide) (by decide)
    apply Alike.word (by decide)
    apply Alike.runs (by decide) (by decide) (by decide) (by decide)
    rw [← List.append_nil " \x7b\n\tpublic void go() \x7b".toList]
    apply Alike.word (by decide) Alike.nil
  obtain ⟨hspots, -, hend, -⟩ := checkText_alike halike
  use halike
  rw [← hspots, ← hend]
  decide

end JavadocCoverage
