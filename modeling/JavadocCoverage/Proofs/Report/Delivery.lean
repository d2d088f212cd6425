import JavadocCoverage.Proofs.Files.Obstruction
import JavadocCoverage.Proofs.Report.Accounting

/-!
# What a run changes

A run changes nothing but the file that its report goes to (`Node.run_frame`).  What is written
to that file is what the same check prints when no file is given.  A run that cannot open the
file fails and leaves all that was there.

The report is not written elsewhere first and then moved.  So a run that could open the file
and not write the report to its end leaves the beginning of the report in it, which may be any
(`Node.exists_undelivered_check`), and what the file held before is lost
(`Node.not_failsUnharmed_lostLinkTree`).

The report is complete before the first directory is made for it, so that it may be written
below the root, and over one of the sources that it tells of.
-/

namespace JavadocCoverage

/-- The same check, with its report printed. -/
def CheckOptions.printed (options : CheckOptions) : CheckOptions :=
  { options with output := none }

namespace Node

/-- The octets that the same check prints when no file is given. -/
def printedOctets (tree : Node) (filter : Filter) (root : Path) (options : CheckOptions)
    (durationMs : Nat) : Bytes :=
  Utf8.encode (tree.check filter root options.printed durationMs).2.stdout

section

variable (tree : Node) (filter : Filter) (root : Path) (durationMs : Nat)
  (answers : List WriteAnswer) {options : CheckOptions}

theorem printedOctets_eq :
  tree.printedOctets filter root options durationMs
    = Utf8.encode (options.content (tree.audit root durationMs))
  := rfl

variable {path : Path} (hpath : options.outputPath? = some path)
include hpath

/-- A report is delivered just when it can be opened and is written to its end. -/
theorem canDeliver_iff :
  tree.CanDeliver root options durationMs answers
    ↔ tree.CanOpen path
      ∧ (writeAll answers (tree.printedOctets filter root options durationMs)).2 = none
  := by
  rw [CanDeliver, hpath, printedOctets_eq, ← deliver_eq_none_iff]
  simp only [Option.mem_some_iff, forall_eq']

/-- A check whose report goes to a file is a delivery of the report. -/
theorem exists_check_eq :
  ∃ log, tree.check filter root options durationMs answers
    = let (tree', failure) :=
        tree.deliver path (tree.printedOctets filter root options durationMs) answers
      (tree', options.result log (tree.audit root durationMs) failure)
  := by
  rw [check, hpath]
  exact ⟨_, rfl⟩

/-- A check that can open the file of its report leaves in it what is written of the report. -/
theorem exists_delivered_check_of_canOpen (hopen : tree.CanOpen path) :
  ∃ place, tree.Delivered (tree.check filter root options durationMs answers).1 path
    (writeAll answers (tree.printedOctets filter root options durationMs)).1 place
  := by
  obtain ⟨log, hcheck⟩ := tree.exists_check_eq filter root durationMs answers hpath
  rw [hcheck]
  exact exists_delivered hopen _ answers

/-- Any proper prefix of its report may be what a check leaves that could open the file. -/
theorem exists_undelivered_check
    (hopen : tree.CanOpen path) {written : Bytes}
    (hfirst : written <+: tree.printedOctets filter root options durationMs)
    (hproper : written ≠ tree.printedOctets filter root options durationMs) :
  ∃ answers place, ¬ tree.CanDeliver root options durationMs answers
    ∧ tree.Delivered (tree.check filter root options durationMs answers).1 path written place
  := by
  have hstop : ∃ answers, writeAll answers (tree.printedOctets filter root options durationMs)
      = (written, some .nothingWritten) := exists_writeAll_eq_iff.mpr ⟨hfirst, hproper⟩
  obtain ⟨answers, hanswers⟩ := hstop
  obtain ⟨place, hdelivered⟩ :=
    tree.exists_delivered_check_of_canOpen filter root durationMs answers hpath hopen
  rw [hanswers] at hdelivered
  use answers, place
  rw [tree.canDeliver_iff filter root durationMs answers hpath, hanswers]
  exact ⟨nofun, hdelivered⟩

end

end Node

end JavadocCoverage
