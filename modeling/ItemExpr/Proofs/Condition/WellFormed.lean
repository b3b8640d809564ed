import ItemExpr.Proofs.Condition.Joined
import ItemExpr.Proofs.Condition.Paths

/-! # Which conditions compile

`Condition.WellFormed` says without the compiler what a condition has to be like at every depth, and
`Condition.HasDefect` what can be wrong with it at which place. The compiler works on the normal
form, from which superfluous groups are gone, but no malformed part is lost with them: the normal
form has the same tests and paths and the same empty groups (`mem_parts_normal`). So exactly the
well-formed conditions whose text is not too long compile, every test is in the text, and every
refusal names something that is wrong with the condition as it was given
(`compileClause_accepts_wellFormed`). -/

namespace ItemExpr

/-- Operands cannot be read if one of them cannot. -/
theorem Operand.exists_of_readAll_error {operands : List Operand}
    {refusal : CompileError} (refused : Operand.readAll operands = .error refusal) :
    ∃ operand ∈ operands, operand.read = .error refusal := by
  induction operands with
  | nil => cases refused
  | cons operand operands ih =>
    rw [Operand.readAll] at refused
    rcases cons_eq_error_iff.1 refused with first | ⟨_, _, rest⟩
    · exact ⟨operand, List.mem_cons_self, first⟩
    · obtain ⟨other, mem, refused⟩ := ih rest
      exact ⟨other, List.mem_cons_of_mem operand mem, refused⟩

/-! ### The tests of formulas -/

namespace Formula

variable {ν : Type}

mutual

/-- The **tests of a formula**, from left to right. -/
def tests : Formula ν → List (Test ν)
  | .test leaf => [leaf]
  | .group _ members => memberTests members
  | .not formula => tests formula

/-- The tests of some formulas, from left to right. -/
def memberTests : List (Formula ν) → List (Test ν)
  | [] => []
  | member :: members => tests member ++ memberTests members

end

theorem memberTests_eq_flatMap (members : List (Formula ν)) :
    memberTests members = members.flatMap tests := by
  induction members with
  | nil => rfl
  | cons member members ih => rw [memberTests, ih, List.flatMap_cons]

end Formula

namespace Condition

open Compile

variable {connective : Connective} {condition : Condition} {settings : Settings}

/-! ### The parts of conditions -/

mutual

/-- The **parts of a condition** at every depth, the condition itself first. -/
def parts : Condition → List Condition
  | .group connective members => .group connective members :: memberParts members
  | .not condition => .not condition :: parts condition
  | condition => [condition]

/-- The parts of some conditions, from left to right. -/
def memberParts : List Condition → List Condition
  | [] => []
  | member :: members => parts member ++ memberParts members

end

theorem memberParts_eq_flatMap (members : List Condition) :
    memberParts members = members.flatMap parts := by
  induction members with
  | nil => simp [memberParts]
  | cons member members ih => rw [memberParts, ih, List.flatMap_cons]

theorem parts_group (connective : Connective) (members : List Condition) :
    (Condition.group connective members).parts =
      .group connective members :: members.flatMap parts := by
  rw [parts, memberParts_eq_flatMap]

theorem parts_not (condition : Condition) :
    (Condition.not condition).parts = .not condition :: condition.parts := by
  rw [parts]

theorem parts_of_isTest (test : condition.isTest = true) : condition.parts = [condition] := by
  cases condition with
  | group | not => cases test
  | _ => rw [parts] <;> simp

/-- The **tests of a condition**, from left to right. -/
def tests (condition : Condition) : List Condition := condition.parts.filter isTest

/-- The tests are the parts that are tests. -/
theorem mem_tests {part : Condition} :
    part ∈ condition.tests ↔ part ∈ condition.parts ∧ part.isTest = true :=
  List.mem_filter

@[simp] theorem tests_group (connective : Connective) (members : List Condition) :
    (Condition.group connective members).tests = members.flatMap tests := by
  rw [tests, parts_group, List.filter_cons_of_neg (by simp [isTest]), List.filter_flatMap]
  rfl

@[simp] theorem tests_not (condition : Condition) :
    (Condition.not condition).tests = condition.tests := by
  rw [tests, parts_not, List.filter_cons_of_neg (by simp [isTest]), tests]

theorem tests_of_isTest (test : condition.isTest = true) : condition.tests = [condition] := by
  rw [tests, parts_of_isTest test]
  simp [test]

/-- Taking groups out of a condition leaves its tests as they are. -/
theorem tests_normal (condition : Condition) : condition.normal.tests = condition.tests :=
  collect_normal tests_group tests_not condition

/-- An empty group is a part of a group if that is empty itself, or if it is part of a member. -/
theorem emptyGroup_mem_parts_group {connective' : Connective} {members : List Condition} :
    .group connective' [] ∈ (Condition.group connective members).parts ↔
      (members = [] ∧ connective' = connective) ∨
        ∃ member ∈ members, .group connective' [] ∈ member.parts := by
  rw [parts_group, List.mem_cons, List.mem_flatMap]
  simp [and_comm, eq_comm]

/-- Taking a group out of a condition leaves its empty groups as they are. -/
theorem emptyGroup_mem_parts_of_collapse {condition' : Condition} {connective' : Connective}
    (step : Collapse condition condition') :
    .group connective' [] ∈ condition'.parts ↔ .group connective' [] ∈ condition.parts := by
  induction step with
  | single connective only => simp [emptyGroup_mem_parts_group]
  | splice connective before inner after nonempty =>
    simp [emptyGroup_mem_parts_group, nonempty, or_and_right, exists_or]
  | member connective before after step ih =>
    simp [emptyGroup_mem_parts_group, or_and_right, exists_or, ih]
  | not step ih => simp [parts_not, ih]

/-- The normal form has the empty groups of the condition. -/
theorem emptyGroup_mem_parts_normal {connective' : Connective} :
    .group connective' [] ∈ condition.normal.parts ↔ .group connective' [] ∈ condition.parts := by
  have steps := condition.collapses_normal
  generalize condition.normal = result at steps
  induction steps with
  | refl => rfl
  | tail _ step ih => exact (emptyGroup_mem_parts_of_collapse step).trans ih

/-! ### Well-formed conditions -/

/-- Whether a condition is **well-formed** under some settings. -/
structure WellFormed (settings : Settings) (condition : Condition) : Prop where
  /-- Every group at every depth has a member. -/
  nonempty : ∀ connective, .group connective [] ∉ condition.parts
  /-- Every path is one. -/
  parsed : ∀ text ∈ condition.paths, ∃ path, Path.parse text = .ok path
  /-- Every membership test has candidates, and not too many. -/
  candidates : ∀ operand candidates, .among operand candidates ∈ condition.parts →
    1 ≤ candidates.length ∧ candidates.length ≤ settings.maxCandidates
  /-- No test for a beginning is on a size. -/
  start : ∀ path argument, .beginsWith path argument ∈ condition.parts → argument.isSize = false
  /-- No test for an element is on a size. -/
  element : ∀ path argument, .contains path argument ∈ condition.parts → argument.isSize = false

/-- Whether a condition **has a defect** at a place under some settings. -/
inductive HasDefect (settings : Settings) (condition : Condition) : String → Defect → Prop
  /-- A path is none. -/
  | path {text : String} {defect : Path.Defect} (mem : text ∈ condition.paths)
      (refused : Path.parse text = .error defect) : HasDefect settings condition text (.path defect)
  /-- A membership test has no candidates. -/
  | noCandidates {operand : Operand} (mem : .among operand [] ∈ condition.parts) :
      HasDefect settings condition operand.place .noCandidates
  /-- A membership test has too many candidates. -/
  | tooManyCandidates {operand : Operand} {candidates : List Operand}
      (mem : .among operand candidates ∈ condition.parts)
      (many : settings.maxCandidates < candidates.length) :
      HasDefect settings condition operand.place
        (.tooManyCandidates settings.maxCandidates candidates.length)
  /-- A test for a beginning is on a size. -/
  | start {path : String} {argument : Operand} (mem : .beginsWith path argument ∈ condition.parts)
      (size : argument.isSize = true) :
      HasDefect settings condition path (.sizeArgument .beginsWith)
  /-- A test for an element is on a size. -/
  | element {path : String} {argument : Operand} (mem : .contains path argument ∈ condition.parts)
      (size : argument.isSize = true) :
      HasDefect settings condition path (.sizeArgument .contains)

/-- Whether a refusal **is due** to what is in a condition: an empty group or a defect. -/
inductive IsDue (settings : Settings) (condition : Condition) : CompileError → Prop
  /-- A group has no members. -/
  | emptyGroup {connective : Connective} (mem : .group connective [] ∈ condition.parts) :
      IsDue settings condition .emptyGroup
  /-- A part has a defect. -/
  | malformed {place : String} {defect : Defect}
      (defective : condition.HasDefect settings place defect) :
      IsDue settings condition (.malformed place defect)

/-- A condition has no more wrong with it than another one that has its paths, tests and empty
groups. -/
theorem IsDue.mono {condition' : Condition} {refusal : CompileError}
    (due : condition.IsDue settings refusal) (paths : condition.paths ⊆ condition'.paths)
    (tests : condition.tests ⊆ condition'.tests)
    (groups : ∀ connective, .group connective [] ∈ condition.parts →
      .group connective [] ∈ condition'.parts) : condition'.IsDue settings refusal := by
  have kept : ∀ part : Condition, part.isTest = true → part ∈ condition.parts →
      part ∈ condition'.parts := by
    intro part test mem
    exact (mem_tests.1 (tests (mem_tests.2 ⟨mem, test⟩))).1
  cases due with
  | emptyGroup mem => exact .emptyGroup (groups _ mem)
  | malformed defective =>
    refine .malformed ?_
    cases defective with
    | path mem refused => exact .path (paths mem) refused
    | noCandidates mem => exact .noCandidates (kept _ rfl mem)
    | tooManyCandidates mem many => exact .tooManyCandidates (kept _ rfl mem) many
    | start mem size => exact .start (kept _ rfl mem) size
    | element mem size => exact .element (kept _ rfl mem) size

/-- Nothing is wrong with a well-formed condition. -/
theorem WellFormed.not_isDue (wellFormed : condition.WellFormed settings) {refusal : CompileError} :
    ¬condition.IsDue settings refusal := by
  intro due
  cases due with
  | emptyGroup mem => exact wellFormed.nonempty _ mem
  | malformed defective =>
    cases defective with
    | path mem refused =>
      obtain ⟨path, parses⟩ := wellFormed.parsed _ mem
      rw [refused] at parses
      cases parses
    | noCandidates mem =>
      have some := (wellFormed.candidates _ _ mem).1
      simp at some
    | tooManyCandidates mem many =>
      have few := (wellFormed.candidates _ _ mem).2
      omega
    | start mem size =>
      rw [wellFormed.start _ _ mem] at size
      cases size
    | element mem size =>
      rw [wellFormed.element _ _ mem] at size
      cases size

/-! ### Refusals are due -/

/-- A path that cannot be read is a defect. -/
theorem isDue_of_path {text : String} {refusal : CompileError} (mem : text ∈ condition.paths)
    (refused : Path.read text = .error refusal) : condition.IsDue settings refusal := by
  obtain ⟨defect, parses, rfl⟩ := Path.read_eq_error_iff.1 refused
  exact .malformed (.path mem parses)

/-- An operand that cannot be read is a defect. -/
theorem isDue_of_operand {operand : Operand} {refusal : CompileError}
    (mem : operand ∈ condition.leaves) (refused : operand.read = .error refusal) :
    condition.IsDue settings refusal := by
  have listed : ∀ text, operand.path? = some text → text ∈ condition.paths := by
    intro text same
    rw [paths_eq_filterMap, List.mem_filterMap]
    exact ⟨operand, mem, same⟩
  cases operand with
  | path text | size text =>
    rcases bind_eq_error_iff.1 refused with refused | ⟨_, _, ⟨⟩⟩
    exact isDue_of_path (listed text rfl) refused
  | value literal => cases refused

/-- What refuses a membership test is due. -/
theorem isDue_of_readAmong {operand : Operand} {candidates : List Operand} {refusal : CompileError}
    (refused : readAmong settings operand candidates = .error refusal) :
    (Condition.among operand candidates).IsDue settings refusal := by
  have part : ∀ candidates, .among operand candidates ∈ (among operand candidates).parts :=
    fun candidates => by simp [parts]
  cases candidates with
  | nil =>
    cases refused
    exact .malformed (.noCandidates (part []))
  | cons first others =>
    rw [readAmong] at refused
    split at refused
    · next many =>
      cases refused
      exact .malformed (.tooManyCandidates (part (first :: others)) many)
    · rcases bind_eq_error_iff.1 refused with subject | ⟨_, _, refused⟩
      · exact isDue_of_operand (by simp [leaves]) subject
      rcases bind_eq_error_iff.1 refused with head | ⟨_, _, refused⟩
      · exact isDue_of_operand (by simp [leaves]) head
      rcases bind_eq_error_iff.1 refused with tail | ⟨_, _, ⟨⟩⟩
      obtain ⟨other, mem, refused⟩ := Operand.exists_of_readAll_error tail
      exact isDue_of_operand (by simp [leaves, mem]) refused

/-- What refuses a call is due, if a size is. -/
theorem isDue_of_readFunction {function : Function}
    {make : Path → Term AttributeValue → Test AttributeValue} {path : String} {argument : Operand}
    {refusal : CompileError} (leaves : condition.leaves = [.path path, argument])
    (size : argument.isSize = true → condition.HasDefect settings path (.sizeArgument function))
    (refused : readFunction function make path argument = .error refusal) :
    condition.IsDue settings refusal := by
  rw [readFunction] at refused
  split at refused
  · next sized =>
    cases refused
    exact .malformed (size sized)
  · rcases bind_eq_error_iff.1 refused with target | ⟨_, _, refused⟩
    · refine isDue_of_path ?_ target
      rw [paths_eq_filterMap, leaves]
      exact List.mem_cons_self
    rcases bind_eq_error_iff.1 refused with term | ⟨_, _, ⟨⟩⟩
    exact isDue_of_operand (by simp [leaves]) term

/-- What refuses a test is due. -/
theorem isDue_of_read_test (test : condition.isTest = true) {refusal : CompileError}
    (refused : condition.read settings = .error refusal) : condition.IsDue settings refusal := by
  cases condition with
  | group | not => cases test
  | compare left comparison right =>
    rw [read] at refused
    rcases bind_eq_error_iff.1 refused with first | ⟨_, _, refused⟩
    · exact isDue_of_operand (by simp [leaves]) first
    rcases bind_eq_error_iff.1 refused with second | ⟨_, _, ⟨⟩⟩
    exact isDue_of_operand (by simp [leaves]) second
  | between operand lower upper =>
    rw [read] at refused
    rcases bind_eq_error_iff.1 refused with first | ⟨_, _, refused⟩
    · exact isDue_of_operand (by simp [leaves]) first
    rcases bind_eq_error_iff.1 refused with second | ⟨_, _, refused⟩
    · exact isDue_of_operand (by simp [leaves]) second
    rcases bind_eq_error_iff.1 refused with third | ⟨_, _, ⟨⟩⟩
    exact isDue_of_operand (by simp [leaves]) third
  | among operand candidates =>
    rw [read] at refused
    rcases bind_eq_error_iff.1 refused with refused | ⟨_, _, ⟨⟩⟩
    exact isDue_of_readAmong refused
  | «exists» path | hasType path =>
    rw [read] at refused
    rcases bind_eq_error_iff.1 refused with target | ⟨_, _, ⟨⟩⟩
    exact isDue_of_path (by simp [paths]) target
  | beginsWith path start =>
    rw [read] at refused
    rcases bind_eq_error_iff.1 refused with refused | ⟨_, _, ⟨⟩⟩
    exact isDue_of_readFunction rfl (fun size => .start (by simp [parts]) size) refused
  | contains path element =>
    rw [read] at refused
    rcases bind_eq_error_iff.1 refused with refused | ⟨_, _, ⟨⟩⟩
    exact isDue_of_readFunction rfl (fun size => .element (by simp [parts]) size) refused

/-- What is due to a member is due to its group. -/
theorem IsDue.group {member : Condition} {refusal : CompileError}
    (due : member.IsDue settings refusal) {members : List Condition} (mem : member ∈ members) :
    (Condition.group connective members).IsDue settings refusal := by
  refine due.mono ?_ ?_ ?_
  · intro text listed
    rw [paths, memberPaths_eq_flatMap]
    exact List.mem_flatMap.2 ⟨member, mem, listed⟩
  · intro test listed
    rw [tests_group]
    exact List.mem_flatMap.2 ⟨member, mem, listed⟩
  · intro connective' listed
    exact emptyGroup_mem_parts_group.2 (Or.inr ⟨member, mem, listed⟩)

/-- What is due behind a NOT is due to it. -/
theorem IsDue.not {refusal : CompileError} (due : condition.IsDue settings refusal) :
    (Condition.not condition).IsDue settings refusal := by
  refine due.mono ?_ ?_ ?_
  · intro text listed
    rw [paths]
    exact listed
  · intro test listed
    rw [tests_not]
    exact listed
  · intro connective' listed
    rw [parts_not]
    exact List.mem_cons_of_mem _ listed

/-- Members cannot be read if one of them cannot. -/
theorem exists_of_readMembers_error {members : List Condition} {refusal : CompileError}
    (refused : readMembers settings members = .error refusal) :
    ∃ member ∈ members, member.read settings = .error refusal := by
  induction members with
  | nil =>
    rw [readMembers] at refused
    cases refused
  | cons member members ih =>
    rw [readMembers] at refused
    rcases cons_eq_error_iff.1 refused with first | ⟨_, _, rest⟩
    · exact ⟨member, List.mem_cons_self, first⟩
    · obtain ⟨other, mem, refused⟩ := ih rest
      exact ⟨other, List.mem_cons_of_mem member mem, refused⟩

/-- **What refuses a condition is due.** -/
theorem isDue_of_read {refusal : CompileError}
    (refused : condition.read settings = .error refusal) : condition.IsDue settings refusal := by
  induction condition with
  | test condition test => exact isDue_of_read_test test refused
  | not condition ih =>
    rw [read] at refused
    rcases bind_eq_error_iff.1 refused with refused | ⟨_, _, ⟨⟩⟩
    exact (ih refused).not
  | group connective members ih =>
    rw [read] at refused
    split at refused
    · next empty =>
      -- The group itself has no members, or a member has none.
      cases refused
      rw [Bool.or_eq_true, List.isEmpty_iff, List.any_eq_true] at empty
      rcases empty with rfl | ⟨member, mem, empty⟩
      · exact .emptyGroup (emptyGroup_mem_parts_group.2 (Or.inl ⟨rfl, rfl⟩))
      · obtain ⟨connective', rfl⟩ : ∃ connective', member = .group connective' [] := by
          unfold isEmptyGroup at empty
          split at empty
          · exact ⟨_, rfl⟩
          · cases empty
        have part : .group connective' [] ∈ (Condition.group connective' []).parts := by
          simp [parts]
        exact .emptyGroup (emptyGroup_mem_parts_group.2 (Or.inr ⟨_, mem, part⟩))
    · rcases bind_eq_error_iff.1 refused with refused | ⟨_, _, ⟨⟩⟩
      obtain ⟨member, mem, refused⟩ := exists_of_readMembers_error refused
      exact (ih member mem refused).group mem

/-! ### What can be read is well-formed -/

/-- Whether tests say the tests of a formula, one for one. -/
abbrev AllSay (settings : Settings) (tests : List Condition)
    (leaves : List (Test AttributeValue)) : Prop :=
  List.Forall₂ (fun test leaf => Condition.read settings test = .ok (.test leaf)) tests leaves

/-- The tests of members say those of the formulas, if the tests of each member do. -/
theorem allSay_of_readMembers {members : List Condition} {formulas : List (Formula AttributeValue)}
    (each : ∀ member ∈ members, ∀ said, member.read settings = .ok said →
      AllSay settings member.tests said.tests)
    (reads : readMembers settings members = .ok formulas) :
    AllSay settings (members.flatMap tests) (formulas.flatMap Formula.tests) := by
  induction members generalizing formulas with
  | nil =>
    rw [readMembers] at reads
    cases reads
    exact .nil
  | cons member members ih =>
    rw [List.forall_mem_cons] at each
    obtain ⟨said, others, first, rest, rfl⟩ := readMembers_cons_iff.1 reads
    rw [List.flatMap_cons, List.flatMap_cons]
    exact List.rel_append (each.1 said first) (ih each.2 rest)

/-- **No test is lost**: the tests of a condition say those of the formula that it says. -/
theorem allSay_of_read {said : Formula AttributeValue}
    (reads : condition.read settings = .ok said) :
    AllSay settings condition.tests said.tests := by
  induction condition generalizing said with
  | test condition test =>
    obtain ⟨leaf, rfl⟩ := eq_test_of_read test reads
    rw [tests_of_isTest test]
    exact .cons reads .nil
  | group connective members ih =>
    obtain ⟨_, formulas, reads', rfl⟩ := read_group_iff.1 reads
    rw [tests_group, Formula.tests, Formula.memberTests_eq_flatMap]
    exact allSay_of_readMembers (fun member mem _ => ih member mem) reads'
  | not condition ih =>
    rw [read] at reads
    obtain ⟨inner, reads', ⟨⟩⟩ := bind_eq_ok_iff.1 reads
    rw [tests_not, Formula.tests]
    exact ih reads'

/-- Members that can be read can be read one by one. -/
theorem exists_read_of_mem {members : List Condition} {formulas : List (Formula AttributeValue)}
    (reads : readMembers settings members = .ok formulas) :
    ∀ member ∈ members, ∃ said, member.read settings = .ok said := by
  induction members generalizing formulas with
  | nil => simp
  | cons member members ih =>
    obtain ⟨said, others, first, rest, rfl⟩ := readMembers_cons_iff.1 reads
    exact List.forall_mem_cons.2 ⟨⟨said, first⟩, ih rest⟩

/-- A condition that can be read has no empty group at any depth. -/
theorem emptyGroup_notMem_parts_of_read {said : Formula AttributeValue}
    (reads : condition.read settings = .ok said) :
    .group connective [] ∉ condition.parts := by
  induction condition generalizing said with
  | test condition test =>
    rw [parts_of_isTest test, List.mem_singleton]
    rintro rfl
    cases test
  | group connective' members ih =>
    obtain ⟨nonempty, formulas, reads', rfl⟩ := read_group_iff.1 reads
    rw [emptyGroup_mem_parts_group]
    rintro (⟨none, _⟩ | ⟨member, mem, empty⟩)
    · exact nonempty none
    · obtain ⟨said, first⟩ := exists_read_of_mem reads' member mem
      exact ih member mem first empty
  | not condition ih =>
    rw [read] at reads
    obtain ⟨inner, reads', ⟨⟩⟩ := bind_eq_ok_iff.1 reads
    rw [parts_not, List.mem_cons]
    rintro (⟨⟨⟩⟩ | empty)
    exact ih reads' empty

/-- A call that can be read is on no size. -/
theorem isSize_of_readFunction {function : Function}
    {make : Path → Term AttributeValue → Test AttributeValue} {path : String} {argument : Operand}
    {test : Test AttributeValue} (reads : readFunction function make path argument = .ok test) :
    argument.isSize = false := by
  rw [readFunction] at reads
  split at reads
  · cases reads
  · next plain => simpa using plain

/-- A condition that can be read is well-formed. -/
theorem wellFormed_of_read {said : Formula AttributeValue}
    (reads : condition.read settings = .ok said) : condition.WellFormed settings := by
  -- What holds of each test that can be read holds of the tests of the condition.
  have readable : ∀ test, test.isTest = true → test ∈ condition.parts →
      ∃ leaf, Condition.read settings test = .ok (.test leaf) := by
    intro test isTest mem
    exact exists_of_forall₂ (allSay_of_read reads) test (mem_tests.2 ⟨mem, isTest⟩)
  refine ⟨fun connective => emptyGroup_notMem_parts_of_read reads, ?_, ?_, ?_, ?_⟩
  · exact exists_of_forall₂ (parse_paths_of_read reads)
  · intro operand candidates mem
    obtain ⟨leaf, reads'⟩ := readable _ rfl mem
    rw [read] at reads'
    obtain ⟨test, among, _⟩ := bind_eq_ok_iff.1 reads'
    cases candidates with
    | nil => cases among
    | cons first others =>
      rw [readAmong] at among
      split at among
      · cases among
      · next few => exact ⟨by simp, by omega⟩
  · intro path argument mem
    obtain ⟨leaf, reads'⟩ := readable _ rfl mem
    rw [read] at reads'
    obtain ⟨test, call, _⟩ := bind_eq_ok_iff.1 reads'
    exact isSize_of_readFunction call
  · intro path argument mem
    obtain ⟨leaf, reads'⟩ := readable _ rfl mem
    rw [read] at reads'
    obtain ⟨test, call, _⟩ := bind_eq_ok_iff.1 reads'
    exact isSize_of_readFunction call

/-- A condition is well-formed exactly if nothing is wrong with it. -/
theorem wellFormed_iff_not_isDue :
    condition.WellFormed settings ↔ ∀ refusal, ¬condition.IsDue settings refusal := by
  constructor
  · intro wellFormed refusal
    exact wellFormed.not_isDue
  · intro clean
    cases reads : condition.read settings with
    | ok said => exact wellFormed_of_read reads
    | error refusal => exact absurd (isDue_of_read reads) (clean refusal)

/-! ### Normal forms -/

/-- What is due to the normal form is due to the condition, and the other way round. -/
theorem isDue_normal {refusal : CompileError} :
    condition.normal.IsDue settings refusal ↔ condition.IsDue settings refusal := by
  constructor
  · intro due
    refine due.mono ?_ ?_ fun _ => emptyGroup_mem_parts_normal.1
    · rw [paths_normal]
      exact List.Subset.refl _
    · rw [tests_normal]
      exact List.Subset.refl _
  · intro due
    refine due.mono ?_ ?_ fun _ => emptyGroup_mem_parts_normal.2
    · rw [paths_normal]
      exact List.Subset.refl _
    · rw [tests_normal]
      exact List.Subset.refl _

/-- The normal form of a condition is well-formed exactly if the condition is. -/
theorem wellFormed_normal :
    condition.normal.WellFormed settings ↔ condition.WellFormed settings := by
  simp only [wellFormed_iff_not_isDue, isDue_normal]

/-! ### Compiling -/

/-- Whether a condition **is written as** a text on a table, with another table after it, before the
length of the text is looked at. -/
def IsWrittenAs (condition : Condition) (table : Placeholders) (text : String)
    (after : Placeholders) : Prop :=
  (compileNormal condition.normal).runOn table = (.ok text, after)

/-- A condition is written as what its normal form says. -/
theorem isWrittenAs_iff {table after : Placeholders} {text : String} :
    condition.IsWrittenAs table text after ↔
      ∃ said, condition.normal.read table.settings = .ok said ∧
        text = said.phrase.written table ∧ after = said.phrase.after table := by
  have settles : Settles table ((compileNormal condition.normal).runOn table)
      ((condition.normal.read table.settings).map Formula.phrase) :=
    compileNormal_denotes condition.normal table
  rw [IsWrittenAs]
  cases reads : condition.normal.read table.settings with
  | error refusal =>
    rw [reads] at settles
    constructor
    · intro ran
      have refused : ((compileNormal condition.normal).runOn table).1 = .error refusal := settles
      rw [ran] at refused
      cases refused
    · rintro ⟨_, ⟨⟩, _⟩
  | ok said =>
    rw [reads] at settles
    have wrote : (compileNormal condition.normal).runOn table =
      (.ok (said.phrase.written table), said.phrase.after table) := settles
    rw [wrote]
    constructor
    · rintro ⟨⟩
      exact ⟨said, rfl, rfl, rfl⟩
    · rintro ⟨_, ⟨⟩, rfl, rfl⟩
      rfl

/-- Exactly the well-formed conditions are written as something. -/
theorem wellFormed_iff_isWrittenAs {table : Placeholders} :
    condition.WellFormed table.settings ↔ ∃ text after, condition.IsWrittenAs table text after := by
  constructor
  · intro wellFormed
    cases reads : condition.normal.read table.settings with
    | ok said => exact ⟨_, _, isWrittenAs_iff.2 ⟨said, reads, rfl, rfl⟩⟩
    | error refusal =>
      have due := isDue_normal.1 (isDue_of_read reads)
      exact absurd due wellFormed.not_isDue
  · rintro ⟨text, after, written⟩
    obtain ⟨said, reads, _⟩ := isWrittenAs_iff.1 written
    exact wellFormed_normal.1 (wellFormed_of_read reads)

section Outcome

variable {clause : Clause} {table after : Placeholders} {text : String}

/-- A condition compiles to what it is written as, if that is not too long. -/
theorem runOn_compileClause_eq_ok_iff :
    (condition.compileClause clause).runOn table = (.ok text, after) ↔
      condition.IsWrittenAs table text after ∧ text.utf8ByteSize ≤ table.settings.maxBytes := by
  rw [runOn_compileClause, isWrittenAs_iff]
  constructor
  · intro compiled
    have fits := fits_of_clauseOutcome_eq_ok compiled
    obtain ⟨phrase, means, rfl, rfl⟩ := clauseOutcome_eq_ok compiled
    obtain ⟨said, reads, rfl⟩ := map_eq_ok_iff.1 means
    exact ⟨⟨said, reads, rfl, rfl⟩, fits⟩
  · rintro ⟨⟨said, reads, rfl, rfl⟩, fits⟩
    rw [reads]
    exact clauseOutcome_of_fits fits

/-- In what a condition is written as, each test of the condition is a test of its own. -/
theorem allSay_of_isWrittenAs (written : condition.IsWrittenAs table text after) :
    ∃ said : Formula AttributeValue, text = (said.spell after.spell).text ∧
      AllSay table.settings condition.tests said.tests := by
  obtain ⟨said, reads, rfl, rfl⟩ := isWrittenAs_iff.1 written
  refine ⟨said, rfl, ?_⟩
  rw [← tests_normal]
  exact allSay_of_read reads

/-- A condition that does not compile is refused for what is due, or for the length of what it is
written as. -/
theorem isDue_of_compileClause {refusal : CompileError}
    (refused : (condition.compileClause clause).runOn table = (.error refusal, after)) :
    condition.IsDue table.settings refusal ∨ ∃ text scratch,
      condition.IsWrittenAs table text scratch ∧ table.settings.maxBytes < text.utf8ByteSize ∧
        refusal = .tooLong clause text.utf8ByteSize table.settings.maxBytes := by
  rw [runOn_compileClause] at refused
  cases reads : condition.normal.read table.settings with
  | error refusal' =>
    rw [reads] at refused
    cases refused
    exact Or.inl (isDue_normal.1 (isDue_of_read reads))
  | ok said =>
    have written : condition.IsWrittenAs table (said.phrase.written table)
        (said.phrase.after table) := isWrittenAs_iff.2 ⟨said, reads, rfl, rfl⟩
    rw [reads] at refused
    by_cases fits : (said.phrase.written table).utf8ByteSize ≤ table.settings.maxBytes
    · have accepted := (clauseOutcome_of_fits fits).symm.trans refused
      cases accepted
    · have long := (clauseOutcome_of_not_fits fits).symm.trans refused
      cases long
      exact Or.inr ⟨_, _, written, Nat.lt_of_not_le fits, rfl⟩

end Outcome

/-- **The compiler accepts exactly the well-formed conditions whose text is not too long, and drops
nothing.** In the text of a condition that compiles each test of the condition is a test of its
own. A condition that does not compile leaves the table as it was: it has an empty group if it is
refused for one, it has the defect that it is refused for, and if it is refused for the length of
its text, nothing else is wrong with it and the text is as long as that. -/
theorem compileClause_accepts_wellFormed (clause : Clause) (condition : Condition)
    (table : Placeholders) :
    ((∃ text after, (condition.compileClause clause).runOn table = (.ok text, after)) ↔
      condition.WellFormed table.settings ∧ ∀ text after,
        condition.IsWrittenAs table text after → text.utf8ByteSize ≤ table.settings.maxBytes) ∧
    (∀ text after, (condition.compileClause clause).runOn table = (.ok text, after) →
      condition.IsWrittenAs table text after ∧
        ∃ said : Formula AttributeValue, text = (said.spell after.spell).text ∧
          AllSay table.settings condition.tests said.tests) ∧
    ∀ refusal after, (condition.compileClause clause).runOn table = (.error refusal, after) →
      after = table ∧ (condition.IsDue table.settings refusal ∨
        condition.WellFormed table.settings ∧ ∃ text scratch,
          condition.IsWrittenAs table text scratch ∧ table.settings.maxBytes < text.utf8ByteSize ∧
            refusal = .tooLong clause text.utf8ByteSize table.settings.maxBytes) := by
  refine ⟨⟨?_, ?_⟩, ?_, ?_⟩
  · rintro ⟨text, after, compiled⟩
    obtain ⟨written, fits⟩ := runOn_compileClause_eq_ok_iff.1 compiled
    refine ⟨wellFormed_iff_isWrittenAs.2 ⟨text, after, written⟩, ?_⟩
    intro text' after' written'
    have same : (Except.ok text, after) = (Except.ok text', after') := written.symm.trans written'
    cases same
    exact fits
  · rintro ⟨wellFormed, short⟩
    obtain ⟨text, after, written⟩ := wellFormed_iff_isWrittenAs.1 wellFormed
    exact ⟨text, after, runOn_compileClause_eq_ok_iff.2 ⟨written, short text after written⟩⟩
  · intro text after compiled
    have written := (runOn_compileClause_eq_ok_iff.1 compiled).1
    exact ⟨written, allSay_of_isWrittenAs written⟩
  · intro refusal after refused
    constructor
    · rw [runOn_compileClause] at refused
      exact clauseOutcome_eq_error refused
    · rcases isDue_of_compileClause refused with due | ⟨text, scratch, written, long, same⟩
      · exact Or.inl due
      · exact Or.inr ⟨wellFormed_iff_isWrittenAs.2 ⟨text, scratch, written⟩, text, scratch, written,
          long, same⟩

/-- A membership test in superfluous groups compiles, so that it is well-formed. An empty group deep
inside such groups, behind a NOT, is found out. A condition that is well-formed is refused if its
text is one byte too long. -/
theorem compileClause_accepts_wellFormed_hidden_parts :
    (((compileClause .condition (.group .or [.group .and
        [.among (.path "a") [.size "b", .value (.boolean true)]]])).runOn
        (Placeholders.empty {})).1 = .ok "#a IN (size(#b), :v1)" ∧
      WellFormed {} (.group .or [.group .and
        [.among (.path "a") [.size "b", .value (.boolean true)]]])) ∧
    (((compileClause .condition (.not (.group .and [.exists "a" false,
        .group .or [.group .and [.exists "b" false, .group .or []]]]))).runOn
        (Placeholders.empty {})).1 = .error .emptyGroup ∧
      IsDue {} (.not (.group .and [.exists "a" false,
        .group .or [.group .and [.exists "b" false, .group .or []]]])) .emptyGroup) ∧
    ((compileClause .condition (.exists "a" false)).runOn
        (Placeholders.empty { maxBytes := 19 })).1 = .error (.tooLong .condition 20 19) ∧
      WellFormed { maxBytes := 19 } (.exists "a" false) := by
  refine ⟨?_, ?_, ?_⟩
  · have ran : ((compileClause .condition (.group .or [.group .and
        [.among (.path "a") [.size "b", .value (.boolean true)]]])).runOn
        (Placeholders.empty {})).1 = .ok "#a IN (size(#b), :v1)" := by decide +kernel
    refine ⟨ran, ?_⟩
    exact ((compileClause_accepts_wellFormed .condition _ (Placeholders.empty {})).1.1
      ⟨_, _, Prod.ext ran rfl⟩).1
  · have ran : ((compileClause .condition (.not (.group .and [.exists "a" false,
        .group .or [.group .and [.exists "b" false, .group .or []]]]))).runOn
        (Placeholders.empty {})).1 = .error .emptyGroup := by decide +kernel
    obtain ⟨_, due | ⟨_, _, _, _, _, ⟨⟩⟩⟩ :=
      (compileClause_accepts_wellFormed .condition _ (Placeholders.empty {})).2.2 _ _
        (Prod.ext ran rfl)
    exact ⟨ran, due⟩
  · have ran : ((compileClause .condition (.exists "a" false)).runOn
        (Placeholders.empty { maxBytes := 19 })).1 = .error (.tooLong .condition 20 19) := by
      decide +kernel
    obtain ⟨_, due | ⟨wellFormed, _⟩⟩ :=
      (compileClause_accepts_wellFormed .condition _
        (Placeholders.empty { maxBytes := 19 })).2.2 _ _ (Prod.ext ran rfl)
    · cases due
    · exact ⟨ran, wellFormed⟩

end Condition

end ItemExpr
