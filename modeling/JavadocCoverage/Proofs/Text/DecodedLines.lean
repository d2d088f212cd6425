import JavadocCoverage.Proofs.Source.Findings
import JavadocCoverage.Proofs.Text.Decoding
import JavadocCoverage.Proofs.Text.Lines
import JavadocCoverage.Report.Audit

/-!
# The lines of a decoded text

Decoding keeps lines: the lines of the text that octets are decoded to are the decodings
of the lines of the octets, whether these are well-formed or not
(`splitLines_decode`).  So the lines of a source, and the numbers of its findings, are
told by the line ends among its octets alone (`lines_of_reading`).
-/

namespace JavadocCoverage

namespace Utf8

/-- Decoding carries ASCII octets over to their characters. -/
theorem carriesMark_decode
    {a : UInt8} (ha : IsAsciiOctet a) :
  CarriesMark a (Char.ofNat a.toNat) decode
  where
    append_cons := decode_append_cons ha
    exists_of_eq _ _ _ := exists_of_decode_eq_append_cons ha

theorem carriesLines_decode :
  CarriesLines 0x0A 0x0D '\n' '\r' decode
  where
    lineFeed := carriesMark_decode isAsciiOctet_lineFeed
    carriageReturn := carriesMark_decode isAsciiOctet_carriageReturn
    eq_nil_iff _ := ⟨not_imp_not.mp decode_ne_nil, fun h => h ▸ rfl⟩

end Utf8

theorem splitLines_decode
    (bytes : Bytes) :
  splitLines (Utf8.decode bytes) = (splitByteLines bytes).map Utf8.decode
  := by
  apply splitLines_eq_iff.mpr
  apply Utf8.carriesLines_decode.isCutInto
  apply splitByteLines_eq_iff.mp rfl

/-- A finding stands on the line of its number, and has its text. -/
theorem text_of_mem_checkLines
    {finding : Finding} {lines : List Text} (h : finding ∈ checkLines lines) :
  ∃ line ∈ lines[finding.line - 1]?, finding.text = line.trim
  := by
  have htext := (mem_findingsFrom_nil_iff_isDue.mp h).text_eq
  rw [List.getElem?_map] at htext
  obtain ⟨line, hline, heq⟩ := Option.map_eq_some_iff.mp htext
  use line, hline, heq.symm

/-- Of a file that was read, the lines are the decodings of the pieces into which its octets
are cut at line ends, and every finding has the number and the text of such a piece. -/
theorem lines_of_reading
    (path : Path) (content : Bytes) :
  IsCutInto 0x0A 0x0D content (splitByteLines content) ∧
    splitLines (Utf8.decode content) = (splitByteLines content).map Utf8.decode ∧
    (FileReading.mk path (.ok content)).source
      = .ok ⟨path, (splitByteLines content).map Utf8.decode⟩ ∧
    ∀ finding ∈ (FileReading.mk path (.ok content)).report.findings,
      ∃ piece ∈ (splitByteLines content)[finding.line - 1]?,
        finding.text = (Utf8.decode piece).trim
  := by
  use splitByteLines_eq_iff.mp rfl, splitLines_decode content
  constructor
  · rw [← splitLines_decode]
    rfl
  · intro finding hmem
    change finding ∈ checkLines (splitLines (Utf8.decode content)) at hmem
    rw [splitLines_decode] at hmem
    obtain ⟨line, hline, htext⟩ := text_of_mem_checkLines hmem
    rw [List.getElem?_map] at hline
    obtain ⟨piece, hpiece, rfl⟩ := Option.map_eq_some_iff.mp hline
    use piece, hpiece, htext

/-- Three parts that are not well-formed, each cut off by a line end: one octet of two, two
of three, and three of four. -/
example :
    splitLines (Utf8.decode [0xC3, 0x0A, 0xE2, 0x82, 0x0D, 0xF0, 0x9F, 0x98, 0x0D, 0x0A, 0x61])
      = ["\uFFFD".toList, "\uFFFD".toList, "\uFFFD".toList, "a".toList] := by
  decide

end JavadocCoverage
