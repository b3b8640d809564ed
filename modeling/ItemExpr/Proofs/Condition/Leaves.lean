import ItemExpr.Proofs.Condition.Collapse
import Mathlib.Data.List.Forall2

/-! # The leaves of conditions and of formulas

The leaves of a condition are its operands from left to right, an attribute that is tested as such
among them and the code of a type that is tested. The formula that a condition says has leaves that
these are read as, one for one (`Condition.leaves_of_read`), and it mentions what its leaves
mention. Taking groups out of a condition leaves its leaves as they are
(`Condition.leaves_normal`). -/

namespace ItemExpr

variable {ν : Type}

/-! ### The leaves of formulas -/

/-- The leaves of a test, from left to right. -/
def Test.leaves : Test ν → List (Term ν)
  | .compare left _ right => [left, right]
  | .between term lower upper => [term, lower, upper]
  | .among term first others => term :: first :: others
  | .exists target _ => [.path target]
  | .hasType target code => [.path target, code]
  | .beginsWith target start => [.path target, start]
  | .contains target element => [.path target, element]

/-- A test mentions what its leaves mention. -/
theorem Test.mentions_eq_flatMap (test : Test ν) :
    test.mentions = test.leaves.flatMap Term.mentions := by
  cases test <;> simp [mentions, leaves, Term.mentions]

namespace Formula

mutual

/-- The **leaves of a formula**, from left to right. -/
def leaves : Formula ν → List (Term ν)
  | .test leaf => leaf.leaves
  | .group _ members => memberLeaves members
  | .not formula => leaves formula

/-- The leaves of some formulas, from left to right. -/
def memberLeaves : List (Formula ν) → List (Term ν)
  | [] => []
  | member :: members => leaves member ++ memberLeaves members

end

theorem memberLeaves_eq_flatMap (members : List (Formula ν)) :
    memberLeaves members = members.flatMap leaves := by
  induction members with
  | nil => rfl
  | cons member members ih => rw [memberLeaves, ih, List.flatMap_cons]

/-- A formula mentions what its leaves mention. -/
theorem mentions_eq_flatMap (formula : Formula ν) :
    formula.mentions = formula.leaves.flatMap Term.mentions := by
  induction formula with
  | test leaf => exact leaf.mentions_eq_flatMap
  | not formula ih => exact ih
  | group connective members ih =>
    rw [mentions, memberMentions_eq_flatMap, leaves, memberLeaves_eq_flatMap, List.flatMap_assoc]
    exact List.flatMap_congr ih

end Formula

/-! ### The leaves of conditions -/

namespace Condition

mutual

/-- The **leaves of a condition**, from left to right. -/
def leaves : Condition → List Operand
  | .compare left _ right => [left, right]
  | .between operand lower upper => [operand, lower, upper]
  | .among operand candidates => operand :: candidates
  | .group _ members => memberLeaves members
  | .not condition => leaves condition
  | .exists path _ => [.path path]
  | .hasType path type => [.path path, .value (.string type.code)]
  | .beginsWith path start => [.path path, start]
  | .contains path element => [.path path, element]

/-- The leaves of some conditions, from left to right. -/
def memberLeaves : List Condition → List Operand
  | [] => []
  | member :: members => leaves member ++ memberLeaves members

end

theorem memberLeaves_eq_flatMap (members : List Condition) :
    memberLeaves members = members.flatMap leaves := by
  induction members with
  | nil => rfl
  | cons member members ih => rw [memberLeaves, ih, List.flatMap_cons]

/-- Taking groups out of a condition leaves its leaves as they are. -/
theorem leaves_normal (condition : Condition) : condition.normal.leaves = condition.leaves :=
  collect_normal (fun _ members => memberLeaves_eq_flatMap members) (fun _ => rfl) condition

end Condition

/-! ### Reading leaves -/

/-- Whether operands are read as terms, one for one. -/
abbrev Operand.AllReadAs (operands : List Operand) (terms : List (Term AttributeValue)) : Prop :=
  List.Forall₂ (fun operand term => Operand.read operand = .ok term) operands terms

open Compile

/-- Operands that are read in order are read one for one. -/
theorem Operand.allReadAs_of_readAll {operands : List Operand}
    {terms : List (Term AttributeValue)} (reads : Operand.readAll operands = .ok terms) :
    Operand.AllReadAs operands terms := by
  induction operands generalizing terms with
  | nil =>
    cases reads
    exact .nil
  | cons operand operands ih =>
    obtain ⟨term, others, first, rest, rfl⟩ := cons_eq_ok_iff.1 reads
    exact .cons first (ih rest)

/-- A path is read as an operand if it is read. -/
theorem Operand.read_path {text : String} {path : Path} (reads : Path.read text = .ok path) :
    (Operand.path text).read = .ok (.path path) := by
  rw [read, reads]
  rfl

namespace Condition

variable {settings : Settings}

/-- The leaves of a call are read as those of the test that it says. -/
theorem leaves_of_readFunction {function : Function}
    {make : Path → Term AttributeValue → Test AttributeValue}
    (leaves : ∀ target argument, (make target argument).leaves = [.path target, argument])
    {path : String} {argument : Operand} {test : Test AttributeValue}
    (reads : readFunction function make path argument = .ok test) :
    Operand.AllReadAs [.path path, argument] test.leaves := by
  rw [readFunction] at reads
  split at reads
  · cases reads
  · obtain ⟨target, parsed, reads⟩ := bind_eq_ok_iff.1 reads
    obtain ⟨term, read, same⟩ := bind_eq_ok_iff.1 reads
    cases same
    rw [leaves]
    exact .cons (Operand.read_path parsed) (.cons read .nil)

/-- The leaves of a membership test are read as those of the test that it says. -/
theorem leaves_of_readAmong {operand : Operand} {candidates : List Operand}
    {test : Test AttributeValue} (reads : readAmong settings operand candidates = .ok test) :
    Operand.AllReadAs (operand :: candidates) test.leaves := by
  cases candidates with
  | nil => cases reads
  | cons first others =>
    rw [readAmong] at reads
    split at reads
    · cases reads
    · obtain ⟨term, read, reads⟩ := bind_eq_ok_iff.1 reads
      obtain ⟨first', read', reads⟩ := bind_eq_ok_iff.1 reads
      obtain ⟨others', read'', same⟩ := bind_eq_ok_iff.1 reads
      cases same
      exact .cons read (.cons read' (Operand.allReadAs_of_readAll read''))

/-- The leaves of a test are read as those of the formula that it says. -/
theorem leaves_of_read_test {condition : Condition} {formula : Formula AttributeValue}
    (test : condition.isTest = true) (reads : condition.read settings = .ok formula) :
    Operand.AllReadAs condition.leaves formula.leaves := by
  cases condition with
  | group | not => cases test
  | compare left comparison right =>
    rw [read] at reads
    obtain ⟨left', read, reads⟩ := bind_eq_ok_iff.1 reads
    obtain ⟨right', read', same⟩ := bind_eq_ok_iff.1 reads
    cases same
    exact .cons read (.cons read' .nil)
  | between operand lower upper =>
    rw [read] at reads
    obtain ⟨term, read, reads⟩ := bind_eq_ok_iff.1 reads
    obtain ⟨lower', read', reads⟩ := bind_eq_ok_iff.1 reads
    obtain ⟨upper', read'', same⟩ := bind_eq_ok_iff.1 reads
    cases same
    exact .cons read (.cons read' (.cons read'' .nil))
  | among operand candidates =>
    rw [read] at reads
    obtain ⟨leaf, read, same⟩ := bind_eq_ok_iff.1 reads
    cases same
    exact leaves_of_readAmong read
  | «exists» path negated =>
    rw [read] at reads
    obtain ⟨target, read, same⟩ := bind_eq_ok_iff.1 reads
    cases same
    exact .cons (Operand.read_path read) .nil
  | hasType path type =>
    rw [read] at reads
    obtain ⟨target, read, same⟩ := bind_eq_ok_iff.1 reads
    cases same
    exact .cons (Operand.read_path read) (.cons rfl .nil)
  | beginsWith path argument | contains path argument =>
    rw [read] at reads
    obtain ⟨leaf, read, same⟩ := bind_eq_ok_iff.1 reads
    cases same
    exact leaves_of_readFunction (fun _ _ => rfl) read

/-- The leaves of members are read as those of the formulas that they say. -/
theorem leaves_of_readMembers {members : List Condition}
    {formulas : List (Formula AttributeValue)}
    (each : ∀ member ∈ members, ∀ formula, member.read settings = .ok formula →
      Operand.AllReadAs member.leaves formula.leaves)
    (reads : readMembers settings members = .ok formulas) :
    Operand.AllReadAs (memberLeaves members) (Formula.memberLeaves formulas) := by
  induction members generalizing formulas with
  | nil =>
    cases reads
    exact .nil
  | cons member members ih =>
    rw [List.forall_mem_cons] at each
    obtain ⟨formula, others, first, rest, rfl⟩ := readMembers_cons_iff.1 reads
    rw [memberLeaves, Formula.memberLeaves]
    exact List.rel_append (each.1 formula first) (ih each.2 rest)

/-- **The leaves of a condition are read as those of the formula that it says.** -/
theorem leaves_of_read {condition : Condition} {formula : Formula AttributeValue}
    (reads : condition.read settings = .ok formula) :
    Operand.AllReadAs condition.leaves formula.leaves := by
  induction condition generalizing formula with
  | test condition test => exact leaves_of_read_test test reads
  | group connective members ih =>
    obtain ⟨_, formulas, reads', rfl⟩ := read_group_iff.1 reads
    exact leaves_of_readMembers (fun member mem _ => ih member mem) reads'
  | not condition ih =>
    rw [read] at reads
    obtain ⟨inner, reads', same⟩ := bind_eq_ok_iff.1 reads
    cases same
    show Operand.AllReadAs condition.leaves inner.leaves
    exact ih reads'

end Condition

end ItemExpr
