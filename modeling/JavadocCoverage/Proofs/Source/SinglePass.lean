import JavadocCoverage.Proofs.Source.Findings

/-!
# Scanning in a single pass

A scan that never looks back: `SinglePass.next` reads one line after the other and
carries, besides the spans of comments and the findings so far, one truth value,
whether the next line is documented.  `scanLines_eq_singlePass` shows that it gives
what `scanLines` gives.  Since a line is read before anything below it, the findings
in the lines read so far are final.
-/

namespace JavadocCoverage

/-- What a single pass knows after the lines read so far. -/
structure SinglePass where
  /-- The next line is documented. -/
  documented : Bool := false
  /-- The spans of documentation comments. -/
  spans : CommentSpans := {}
  /-- The findings. -/
  findings : List Finding := []

namespace SinglePass

/-- One more line, which comes with its index.  Its own findings are settled by the
lines before it, and only then does it count for the lines after it. -/
def next (pass : SinglePass) (entry : Text × Nat) : SinglePass :=
  let line := entry.1.trim
  { documented := if isTransparent line then pass.documented else closesComment line
    spans := pass.spans.next entry.2 line
    findings := pass.findings ++
      if pass.documented then [] else (declarationKinds line).map (⟨·, entry.2 + 1, line⟩) }

/-- The scan that a pass amounts to. -/
def result (pass : SinglePass) : LineScan :=
  { findings := pass.findings
    docComments := pass.spans.closed
    lastCommentEnd := pass.spans.lastEnd
    unterminatedComment := pass.spans.isOpen }

/-- The pass agrees with looking back from below the trimmed lines `above`: they
document the next line when the pass says so. -/
def Agrees (above : List Text) (pass : SinglePass) : Prop :=
  pass.documented = isDocumented above

theorem agrees_next
    {above : List Text} {pass : SinglePass} (h : pass.Agrees above) (line : Text) (index : Nat) :
  (pass.next (line, index)).Agrees (line.trim :: above)
  := by
  unfold Agrees at h ⊢
  rw [isDocumented_cons, ← h]
  rfl

theorem next_findings
    {above : List Text} {pass : SinglePass} (h : pass.Agrees above) (line : Text) (index : Nat) :
  (pass.next (line, index)).findings
    = pass.findings ++ lineFindings above (index + 1) line.trim
  := by
  unfold Agrees at h
  rw [lineFindings_eq, ← h]
  rfl

/-- A pass over a block of lines adds the findings in the block. -/
theorem foldl_next_findings
    {above : List Text} {pass : SinglePass} (h : pass.Agrees above) (lines : List Text)
    (index : Nat) :
  ((lines.zipIdx index).foldl next pass).findings
    = pass.findings ++ findingsFrom above (index + 1) (lines.map Text.trim)
  := by
  induction lines generalizing above pass index with
  | nil =>
    symm
    apply List.append_nil
  | cons line lines ih =>
    rw [List.zipIdx_cons, List.foldl_cons, ih (agrees_next h line index), next_findings h,
      List.append_assoc]
    rfl

/-- A pass over a block of lines follows the spans through the block. -/
theorem foldl_next_spans
    (pass : SinglePass) (lines : List Text) (index : Nat) :
  ((lines.zipIdx index).foldl next pass).spans
    = pass.spans.after index (lines.map Text.trim)
  := by
  induction lines generalizing pass index with
  | nil => rfl
  | cons line lines ih =>
    rw [List.zipIdx_cons, List.foldl_cons, ih]
    rfl

end SinglePass

/-- The scan of the lines in a single pass. -/
def singlePass (lines : List Text) : LineScan :=
  (lines.zipIdx.foldl SinglePass.next {}).result

/-- A scan that looks back from every line and a single pass give the same, and more
lines at the end leave the findings so far as they are. -/
theorem scanLines_eq_singlePass
    (lines further : List Text) :
  scanLines lines = singlePass lines ∧
    (scanLines lines).findings <+: (scanLines (lines ++ further)).findings
  := by
  constructor
  · have hstart : SinglePass.Agrees [] {} := rfl
    have hfindings := SinglePass.foldl_next_findings hstart lines 0
    have hspans := SinglePass.foldl_next_spans {} lines 0
    rw [singlePass, SinglePass.result, hfindings, hspans]
    rfl
  · change checkLines lines <+: checkLines (lines ++ further)
    rw [checkLines_append]
    apply List.prefix_append

end JavadocCoverage
