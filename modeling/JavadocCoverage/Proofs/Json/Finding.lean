import Mathlib.Data.List.Perm.Basic
import JavadocCoverage.Json.Finding
import JavadocCoverage.Proofs.Json.Printing

/-!
# Findings read back

A finding is read from every way to write it: from the compact form, from an object with its
three members in any order and others among them, and from the array of their values
(`Finding.ofJson_written`).

The members of an object are read one after the other.  What has been gathered on the way is
determined by the members that are passed (`Finding.gathered`), as long as each of the three
occurs once (`Finding.IsHeldBy`): one step is `readMember_gathered`, the run
`readMembersWith_gathered`.
-/

namespace JavadocCoverage

namespace Json

/-! ### Numbers of 64 bits -/

theorem le_foldl_digitValue (digits : Text) (n : Nat) :
  n ≤ digits.foldl (fun n c => 10 * n + digitValue c) n
  := by
  induction digits generalizing n with
  | nil => exact Nat.le_refl n
  | cons c digits ih =>
    calc
      n ≤ 10 * n + digitValue c := by omega
      _ ≤ _ := ih _

/-- Digits that denote a number of 64 bits are all kept. -/
theorem gather_eq
    {digits : Text} {n : Nat}
    (h : digits.foldl (fun n c => 10 * n + digitValue c) n < UInt64.size) :
  gather n digits = (digits.foldl (fun n c => 10 * n + digitValue c) n, [])
  := by
  induction digits generalizing n with
  | nil => rfl
  | cons c digits ih =>
    have hnext := Nat.lt_of_le_of_lt (le_foldl_digitValue digits _) h
    rw [gather, if_pos hnext]
    exact ih h

theorem toDouble_lt {n : Nat} (hn : n < UInt64.size) :
  toDouble n < 2 ^ 65
  := by
  have hlog : n.log2 + 1 - 53 ≤ 11 := by
    have hlog : n.log2 < 64 := by
      by_cases h : n = 0
      · subst h
        decide
      · exact (Nat.log2_lt h).mpr hn
    omega
  have hunit : Nat.pow 2 (n.log2 + 1 - 53) ≤ 2 ^ 11 := Nat.pow_le_pow_right (by decide) hlog
  have hquotient := Nat.div_mul_le_self n (Nat.pow 2 (n.log2 + 1 - 53))
  have hsize : UInt64.size + 2 ^ 11 < 2 ^ 65 := by decide
  unfold toDouble
  dsimp only
  split
  · rw [Nat.add_one_mul]
    omega
  · omega

theorem Numeral.isTooGreat_ofNat {n : Nat} (hn : n < UInt64.size) :
  (Numeral.ofNat n).isTooGreat = false
  := by
  have hgather : gather 0 (decimal n) = (n, []) := by
    have h := ofDigits_decimal n
    rw [ofDigits] at h
    rw [gather_eq (by rwa [h]), h]
  have hscaled : Scaled.ofDigits (decimal n) [] 0 = ⟨n, 0⟩ := by
    simp only [Scaled.ofDigits, hgather, gather]
    rfl
  have hproduct : toDouble n * toDouble (Nat.pow 10 0) < doubleBound := by
    have hone : toDouble (Nat.pow 10 0) = 1 := toDouble_eq_self (by decide)
    have hbound : 2 ^ 65 < doubleBound := by decide +kernel
    rw [hone, Nat.mul_one]
    exact Nat.lt_trans (toDouble_lt hn) hbound
  change (Scaled.ofDigits (decimal n) [] 0).isTooGreat = false
  rw [hscaled]
  change (decide (n ≠ 0) && (decide (0 > 308) || decide (_ ≥ doubleBound))) = false
  rw [decide_eq_false (Nat.not_le.mpr hproduct)]
  exact Bool.and_false _

theorem Numeral.natural?_ofNat {n : Nat} (hn : n < UInt64.size) :
  (Numeral.ofNat n).natural? = some n
  := by
  have hsmall : ¬ n ≥ UInt64.size := Nat.not_le.mpr hn
  simp [natural?, ofNat, hsmall]

/-! ### What is read of a value -/

namespace Written

variable {text rest : Text}

theorem exists_string {value : Text} (h : Written (.value (.string value)) text rest) :
  ∃ below, skipSpace text = '"' :: below ∧ Spells below value rest
  := by
  obtain ⟨c, below, hskip, hc, hwritten⟩ := h.exists_skipSpace_eq_cons
  cases hwritten with
  | space hc' => exact absurd (Or.inl hc') hc
  | string h => exact ⟨below, hskip, h⟩

theorem exists_object
    {member : Text × Value} {members : List (Text × Value)}
    (h : Written (.value (.object (member :: members))) text rest) :
  ∃ below, skipSpace text = '\x7b' :: below ∧ Written (.members (member :: members)) below rest
  := by
  obtain ⟨c, below, hskip, hc, hwritten⟩ := h.exists_skipSpace_eq_cons
  cases hwritten with
  | space hc' => exact absurd (Or.inl hc') hc
  | object h => exact ⟨below, hskip, h⟩

theorem exists_array
    {element : Value} {elements : List Value}
    (h : Written (.value (.array (element :: elements))) text rest) :
  ∃ below, skipSpace text = '[' :: below ∧ Written (.elements (element :: elements)) below rest
  := by
  obtain ⟨c, below, hskip, hc, hwritten⟩ := h.exists_skipSpace_eq_cons
  cases hwritten with
  | space hc' => exact absurd (Or.inl hc') hc
  | array h => exact ⟨below, hskip, h⟩

theorem ne_nil {elements : List Value} (h : Written (.elements elements) text rest) :
  elements ≠ []
  := by
  rintro rfl
  obtain ⟨c, below, -, hc, hwritten⟩ := h.exists_skipSpace_eq_cons
  cases hwritten with
  | space hc' => exact hc (Or.inl hc')

theorem exists_element {element : Value} (h : Written (.elements [element]) text rest) :
  ∃ after, Written (.value element) text after ∧ Spaced after (']' :: rest)
  := by
  generalize hform : Form.elements [element] = form at h
  induction h with
  | space hc _ ih =>
    obtain ⟨after, h, hafter⟩ := ih hform
    exact ⟨after, .space hc h, hafter⟩
  | element h hafter =>
    cases hform
    exact ⟨_, h, hafter⟩
  | elements _ _ hbelow =>
    cases hform
    exact absurd rfl hbelow.ne_nil
  | _ => cases hform

theorem exists_elements
    {element next : Value} {elements : List Value}
    (h : Written (.elements (element :: next :: elements)) text rest) :
  ∃ after below, Written (.value element) text after ∧ Spaced after (',' :: below)
    ∧ Written (.elements (next :: elements)) below rest
  := by
  generalize hform : Form.elements (element :: next :: elements) = form at h
  induction h with
  | space hc _ ih =>
    obtain ⟨after, below, h, hbelow⟩ := ih hform
    exact ⟨after, below, .space hc h, hbelow⟩
  | elements h hafter hbelow =>
    cases hform
    exact ⟨_, _, h, hafter, hbelow⟩
  | _ => cases hform

theorem readText_eq {value : Text} (h : Written (.value (.string value)) text rest) :
  readText text = .ok (value, rest)
  := by
  obtain ⟨below, hskip, hspells⟩ := h.exists_string
  simp only [readText, hskip, hspells.readString_eq]
  rfl

theorem readKind_eq
    {kind : DeclarationKind} (h : Written (.value (.string kind.key)) text rest) :
  readKind text = .ok (kind, rest)
  := by
  have hkey : DeclarationKind.ofKey? kind.key = some kind := by
    cases kind with
    | type => rfl
    | method => rfl
  obtain ⟨below, hskip, hspells⟩ := h.exists_string
  have hread := readText_eq (.string hspells)
  simp only [readKind, hskip, readKey, hread, bind, Except.bind, hkey]
  rfl

theorem readNatural_eq
    {n : Nat} (hn : n < UInt64.size) (h : Written (.value (.number (.ofNat n))) text rest)
    (hrest : FollowsValue rest) :
  readNatural text = .ok (n, rest)
  := by
  generalize hform : Form.value (.number (.ofNat n)) = form at h
  induction h with
  | space hc _ ih =>
    rw [readNatural, skipSpace_cons_of_isSpace hc]
    exact ih hrest hform
  | number h rest =>
    cases hform
    have hread := h.readNumeral_append .truncated hrest.endsNumeral
    obtain ⟨c, below, rfl, hc⟩ := h.exists_cons
    have hne := not_mem_of_startsNumber hc
    simp only [List.mem_cons, not_or] at hne
    have hspace : ¬ IsSpace c := by
      simp [IsSpace, hne]
    rw [List.cons_append] at hread
    simp only [readNatural, List.cons_append, skipSpace_cons_of_not_isSpace hspace, if_pos hc,
      readNumber, hread, Numeral.isTooGreat_ofNat hn, Numeral.natural?_ofNat hn, bind, Except.bind,
      Bool.false_eq_true, if_false]
  | _ => cases hform

end Written

end Json

/-! ### The members of a finding -/

open Json

/-- The members of a finding in JSON. -/
def Finding.members (finding : Finding) : List (Text × Value) :=
  [("kind".toList, .string finding.kind.key),
    ("line".toList, .number (.ofNat finding.line)),
    ("text".toList, .string finding.text)]

/-- The value of a finding in JSON. -/
def Finding.value (finding : Finding) : Value :=
  .object finding.members

theorem Finding.value_json (finding : Finding) :
  finding.json.value = finding.value
  := rfl

namespace Finding

variable (finding : Finding)

/-- The keys of the members of a finding. -/
def keys : List Text :=
  ["kind".toList, "line".toList, "text".toList]

/-- Each member of the finding is one of the members, and no other one has its key. -/
def IsHeldBy (members : List (Text × Value)) : Prop :=
  ∀ member ∈ finding.members, members.filter (·.1 = member.1) = [member]

/-- What has been gathered of the finding when the members with the keys are passed. -/
def gathered (passed : List Text) : Members where
  kind := if "kind".toList ∈ passed then some finding.kind else none
  line := if "line".toList ∈ passed then some finding.line else none
  text := if "text".toList ∈ passed then some finding.text else none

variable {finding}

/-- Where the members of the finding stand in some order among others, it is held. -/
theorem isHeldBy_of_perm
    {members : List (Text × Value)} (h : (members.filter (·.1 ∈ keys)).Perm finding.members) :
  finding.IsHeldBy members
  := by
  intro member hmember
  have hkey : member.1 ∈ keys := List.mem_map_of_mem (f := (·.1)) hmember
  have hfilter : (members.filter (·.1 ∈ keys)).filter (·.1 = member.1)
      = members.filter (·.1 = member.1) := by
    rw [List.filter_filter]
    apply List.filter_congr
    intro other _
    by_cases hother : other.1 = member.1
    · simp [hother, hkey]
    · simp [hother]
  have hself : finding.members.filter (·.1 = member.1) = [member] := by
    simp only [Finding.members, List.mem_cons, List.not_mem_nil, or_false] at hmember
    obtain rfl | rfl | rfl := hmember
    · rfl
    · rfl
    · rfl
  have hperm := h.filter (·.1 = member.1)
  rw [hfilter, hself] at hperm
  exact List.perm_singleton.mp hperm

/-- A member of the finding is not passed before it is reached, and has its own value. -/
theorem IsHeldBy.eq_of_mem_keys
    {passed below : List (Text × Value)} {reached member : Text × Value}
    (h : finding.IsHeldBy (passed ++ reached :: below)) (hmember : member ∈ finding.members)
    (hkey : reached.1 = member.1) :
  reached = member ∧ member.1 ∉ passed.map (·.1)
  := by
  have hfilter := h member hmember
  rw [List.filter_append, List.filter_cons, if_pos (decide_eq_true hkey),
    List.append_eq_singleton_iff] at hfilter
  obtain ⟨hpassed, hreached⟩ | ⟨-, hreached⟩ := hfilter
  · constructor
    · exact (List.cons.inj hreached).1
    · intro hmem
      obtain ⟨other, hother, heq⟩ := List.mem_map.mp hmem
      have hnil := List.filter_eq_nil_iff.mp hpassed other hother
      exact hnil (decide_eq_true heq)
  · cases hreached

section

variable (finding) (passed : List Text)

theorem gathered_append_kind :
  finding.gathered (passed ++ ["kind".toList])
    = { finding.gathered passed with kind := some finding.kind }
  := by
  have hline : "line".toList ≠ "kind".toList := by decide
  have htext : "text".toList ≠ "kind".toList := by decide
  simp only [gathered, List.mem_append, List.mem_singleton, or_true, if_true, hline, htext,
    or_false]

theorem gathered_append_line :
  finding.gathered (passed ++ ["line".toList])
    = { finding.gathered passed with line := some finding.line }
  := by
  have hkind : "kind".toList ≠ "line".toList := by decide
  have htext : "text".toList ≠ "line".toList := by decide
  simp only [gathered, List.mem_append, List.mem_singleton, or_true, if_true, hkind, htext,
    or_false]

theorem gathered_append_text :
  finding.gathered (passed ++ ["text".toList])
    = { finding.gathered passed with text := some finding.text }
  := by
  have hkind : "kind".toList ≠ "text".toList := by decide
  have hline : "line".toList ≠ "text".toList := by decide
  simp only [gathered, List.mem_append, List.mem_singleton, or_true, if_true, hkind, hline,
    or_false]

theorem gathered_append_other
    {key : Text} (hkind : key ≠ "kind".toList) (hline : key ≠ "line".toList)
    (htext : key ≠ "text".toList) :
  finding.gathered (passed ++ [key]) = finding.gathered passed
  := by
  simp only [gathered, List.mem_append, List.mem_singleton, hkind.symm, hline.symm, htext.symm,
    or_false]

end

/-- What is gathered when all members are passed is the finding. -/
theorem IsHeldBy.finding?_gathered
    {members : List (Text × Value)} (h : finding.IsHeldBy members) :
  (finding.gathered (members.map (·.1))).finding? = some finding
  := by
  have hmem : ∀ member ∈ finding.members, member.1 ∈ members.map (·.1) := by
    intro member hmember
    apply List.mem_map_of_mem
    apply List.mem_of_mem_filter (p := (·.1 = member.1))
    rw [h member hmember]
    exact List.mem_singleton_self member
  simp only [Finding.members, List.forall_mem_cons] at hmem
  obtain ⟨hkind, hline, htext, -⟩ := hmem
  simp only [gathered, if_pos hkind, if_pos hline, if_pos htext]
  rfl

end Finding

namespace Json

variable {finding : Finding} {passed below : List (Text × Value)} {key : Text} {value : Value}

/-- One more member is read. -/
theorem readMember_gathered
    (hline : finding.line < UInt64.size)
    (hheld : finding.IsHeldBy (passed ++ (key, value) :: below)) {text valueText rest : Text}
    (hcolon : Spaced text (':' :: valueText)) (h : Written (.value value) valueText rest)
    (hrest : FollowsValue rest) :
  readMember (finding.gathered (passed.map (·.1))) key text
    = .ok (finding.gathered (passed.map (·.1) ++ [key]), rest)
  := by
  have hmark := hcolon.readMark (by decide)
  have hmembers : ∀ member ∈ finding.members, key = member.1 →
      (key, value) = member ∧ member.1 ∉ passed.map (·.1) := by
    intro member hmember
    exact hheld.eq_of_mem_keys hmember
  simp only [Finding.members, List.forall_mem_cons] at hmembers
  obtain ⟨hkind, hnumber, htext, -⟩ := hmembers
  unfold readMember
  by_cases hkey : key = "kind".toList
  · obtain ⟨heq, hnew⟩ := hkind hkey
    cases heq
    have hread := h.readKind_eq
    simp only [if_true, Finding.gathered_append_kind, hmark, hread, bind, Except.bind, pure,
      Except.pure]
    simp only [Finding.gathered, if_neg hnew]
    rfl
  rw [if_neg hkey]
  by_cases hkey' : key = "line".toList
  · obtain ⟨heq, hnew⟩ := hnumber hkey'
    cases heq
    have hread := h.readNatural_eq hline hrest
    simp only [if_true, Finding.gathered_append_line, hmark, hread, bind, Except.bind, pure,
      Except.pure]
    simp only [Finding.gathered, if_neg hnew]
    rfl
  rw [if_neg hkey']
  by_cases hkey'' : key = "text".toList
  · obtain ⟨heq, hnew⟩ := htext hkey''
    cases heq
    have hread := h.readText_eq
    simp only [if_true, Finding.gathered_append_text, hmark, hread, bind, Except.bind, pure,
      Except.pure]
    simp only [Finding.gathered, if_neg hnew]
    rfl
  · have hskip := h.skipValue_eq hrest
    rw [if_neg hkey'', Finding.gathered_append_other _ _ hkey hkey' hkey'']
    simp only [hmark, hskip, bind, Except.bind, pure, Except.pure]

/-- The members that are left are read, and complete the finding. -/
theorem readMembersWith_gathered
    (hline : finding.line < UInt64.size) {members : List (Text × Value)} {text rest : Text}
    (h : Written (.members members) text rest) {passed : List (Text × Value)}
    (hheld : finding.IsHeldBy (passed ++ members)) {fuel : Nat} (hfuel : text.length ≤ fuel) :
  readMembersWith fuel (finding.gathered (passed.map (·.1))) text = .ok (finding, rest)
  := by
  generalize hform : Form.members members = form at h
  induction h generalizing passed members fuel with
  | space hc _ ih =>
    obtain _ | fuel := fuel
    · cases hfuel
    · have hread := ih hheld (Nat.le_of_succ_le hfuel) hform
      rw [readMembersWith] at hread ⊢
      rwa [skipSpace_cons_of_isSpace hc]
  | @member key _ _ _ _ _ _ hkey hcolon h hafter =>
    cases hform
    obtain _ | fuel := fuel
    · cases hfuel
    · have hstring : readString true [] _ = .ok (key, _) := hkey.readString_eq []
      have hread := readMember_gathered hline hheld hcolon h
        (hafter.followsValue (followsValue_cons (by simp) _))
      have hskip := hafter.skipSpace_eq_cons (by decide)
      have hall := hheld.finding?_gathered
      rw [List.map_append, List.map_singleton] at hall
      simp only [readMembersWith, skipSpace_cons_of_not_isSpace (c := '"') (by decide),
        hstring, hread, hskip, hall, bind, Except.bind]
  | @members key value _ _ _ _ _ below _ hkey hcolon h hafter _ _ ih =>
    cases hform
    have hshort : _ < _ := hkey.length_lt
    have := hcolon.length_le
    have := h.length_lt
    have := hafter.length_le
    obtain _ | fuel := fuel
    · cases hfuel
    · have hstring : readString true [] _ = .ok (key, _) := hkey.readString_eq []
      have hread := readMember_gathered hline hheld hcolon h
        (hafter.followsValue (followsValue_cons (by simp) _))
      have hskip := hafter.skipSpace_eq_cons (by decide)
      simp only [readMembersWith, skipSpace_cons_of_not_isSpace (c := '"') (by decide),
        hstring, hread, hskip, bind, Except.bind]
      rw [List.append_cons] at hheld
      have hlength : below.length ≤ fuel := by
        simp only [List.length_cons] at *
        omega
      have hbelow := ih hheld hlength rfl
      rwa [List.map_append, List.map_singleton] at hbelow
  | _ => cases hform

/-- A comma is read where another element is written after it, with the white space before
the element. -/
theorem exists_readComma
    {form : Form} {after below rest : Text} (hafter : Spaced after (',' :: below))
    (hbelow : Written form below rest) :
  ∃ below', readComma after = .ok below' ∧ Written form below' rest
  := by
  obtain ⟨c, below', hskip, hc, hwritten⟩ := hbelow.exists_skipSpace_eq_cons
  simp only [not_or] at hc
  use c :: below'
  simp only [readComma, hafter.skipSpace_eq_cons (by decide), hskip]
  split
  · next heq => cases heq
  · next heq => exact absurd (List.cons.inj heq).1 hc.2.1
  · exact ⟨rfl, hwritten⟩

end Json

namespace Finding

variable {finding : Finding} {text : Text}

theorem ofJson_object
    (hline : finding.line < UInt64.size) {members : List (Text × Value)}
    (h : IsDocument text (.object members)) (hheld : finding.IsHeldBy members) :
  ofJson text = .ok finding
  := by
  obtain ⟨after, hwritten, hafter⟩ := h
  cases members with
  | nil => cases hheld _ List.mem_cons_self
  | cons member members =>
    obtain ⟨below, hskip, hmembers⟩ := hwritten.exists_object
    obtain ⟨c, below', hskip', hc, hmembers⟩ := hmembers.exists_skipSpace_eq_cons
    simp only [not_or] at hc
    have hheld' : finding.IsHeldBy ([] ++ member :: members) := hheld
    have hread := readMembersWith_gathered hline hmembers hheld' (Nat.le_refl _)
    have hobject : readObject below = .ok (finding, after) := by
      rw [readObject, hskip']
      split
      · next heq => cases heq
      · next heq => exact absurd (List.cons.inj heq).1 hc.2.2
      · exact hread
    have hend : skipSpace after = [] := hafter.skipSpace_eq
    simp only [ofJson, hskip, hobject, hend, bind, Except.bind]
    rfl

theorem ofJson_array
    (hline : finding.line < UInt64.size)
    (h : IsDocument text (.array (finding.members.map (·.2)))) :
  ofJson text = .ok finding
  := by
  obtain ⟨after, hwritten, hafter⟩ := h
  obtain ⟨below, hskip, helements⟩ := hwritten.exists_array
  obtain ⟨c, below', hskip', hc, helements⟩ := helements.exists_skipSpace_eq_cons
  simp only [not_or] at hc
  obtain ⟨afterKind, _, hkind, hcomma, helements⟩ := helements.exists_elements
  obtain ⟨_, hreadComma, helements⟩ := exists_readComma hcomma helements
  obtain ⟨afterLine, _, hnumber, hcomma', helements⟩ := helements.exists_elements
  obtain ⟨_, hreadComma', helements⟩ := exists_readComma hcomma' helements
  obtain ⟨afterText, htext, hclose⟩ := helements.exists_element
  have hreadLine := hnumber.readNatural_eq hline
    (hcomma'.followsValue (followsValue_cons (by simp) _))
  have hreadMark := hclose.readMark (by decide)
  have harray : readArray below = .ok (finding, after) := by
    rw [readArray, hskip']
    split
    · next heq => cases heq
    · next heq => exact absurd (List.cons.inj heq).1 hc.2.1
    · simp only [hkind.readKind_eq, hreadComma, hreadLine, hreadComma', htext.readText_eq,
        hreadMark, bind, Except.bind, pure, Except.pure]
  have hend : skipSpace after = [] := hafter.skipSpace_eq
  simp only [ofJson, hskip, harray, hend, bind, Except.bind]
  rfl

/-- A finding is read from its compact form, from every object that has its members in some
order among others, and from every array of their values. -/
theorem ofJson_written (finding : Finding) (hline : finding.line < UInt64.size) :
  ofJson finding.json.compact = .ok finding
    ∧ (∀ text members, IsDocument text (.object members) →
        (members.filter (·.1 ∈ keys)).Perm finding.members → ofJson text = .ok finding)
    ∧ ∀ text,
        IsDocument text (.array [.string finding.kind.key, .number (.ofNat finding.line),
          .string finding.text]) →
        ofJson text = .ok finding
  := by
  have hobject : ∀ text members, IsDocument text (.object members) →
      (members.filter (·.1 ∈ keys)).Perm finding.members → ofJson text = .ok finding := by
    intro text members h hperm
    exact ofJson_object hline h (isHeldBy_of_perm hperm)
  have hcompact := isDocument_compact finding.json
  rw [value_json] at hcompact
  constructor
  · exact hobject _ _ hcompact (.refl _)
  constructor
  · exact hobject
  · intro text h
    exact ofJson_array hline h

/-- The members are found in the reverse order, after one that is skipped. -/
theorem ofJson_written_reversed :
  ofJson (pretty 1 (.object [
      ("note".toList, .array [.null, .object []]),
      ("text".toList, .string "void \"a\"()".toList),
      ("line".toList, .number 18446744073709551615),
      ("kind".toList, .string "method".toList)]))
    = .ok ⟨.method, 18446744073709551615, "void \"a\"()".toList⟩
  := by
  apply (ofJson_written ⟨.method, 18446744073709551615, "void \"a\"()".toList⟩
    (by decide)).2.1 _ _ (isDocument_pretty _ _)
  exact List.reverse_perm [("kind".toList, _), ("line".toList, _), ("text".toList, _)]

end Finding

end JavadocCoverage
