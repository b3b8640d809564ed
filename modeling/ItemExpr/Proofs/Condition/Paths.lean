import ItemExpr.Proofs.Condition.Leaves
import ItemExpr.Proofs.Path.Roots

/-! # The paths of conditions and of formulas

Paths stand at the leaves. So the paths of the formula that a condition says are those that the
texts of the condition are parsed as, one for one from left to right
(`Condition.parse_paths_of_read`), and taking groups out of a condition leaves its paths as they are
(`Condition.paths_normal`). Equal formulas have the same paths (`Formula.paths_eq_of_same`). -/

namespace ItemExpr

variable {ν : Type}

/-! ### The paths of formulas -/

/-- The path of a term, if it has one. -/
def Term.path? : Term ν → Option Path
  | .path target => some target
  | .size target => some target
  | .value _ => none

/-- The paths of a test, from left to right. -/
def Test.paths : Test ν → List Path
  | .compare left _ right => [left, right].filterMap Term.path?
  | .between term lower upper => [term, lower, upper].filterMap Term.path?
  | .among term first others => (term :: first :: others).filterMap Term.path?
  | .exists target _ => [target]
  | .hasType target code => target :: [code].filterMap Term.path?
  | .beginsWith target start => target :: [start].filterMap Term.path?
  | .contains target element => target :: [element].filterMap Term.path?

namespace Formula

mutual

/-- The **paths of a formula**, from left to right. -/
def paths : Formula ν → List Path
  | .test leaf => leaf.paths
  | .group _ members => memberPaths members
  | .not formula => paths formula

/-- The paths of some formulas, from left to right. -/
def memberPaths : List (Formula ν) → List Path
  | [] => []
  | member :: members => paths member ++ memberPaths members

end

theorem memberPaths_eq_flatMap (members : List (Formula ν)) :
    memberPaths members = members.flatMap paths := by
  induction members with
  | nil => rfl
  | cons member members ih => rw [memberPaths, ih, List.flatMap_cons]

/-- The paths of a formula are those of its leaves. -/
theorem paths_eq_filterMap (formula : Formula ν) :
    formula.paths = formula.leaves.filterMap Term.path? := by
  induction formula with
  | test leaf => cases leaf <;> rfl
  | not formula ih => exact ih
  | group connective members ih =>
    rw [paths, memberPaths_eq_flatMap, leaves, memberLeaves_eq_flatMap, List.filterMap_flatMap]
    exact List.flatMap_congr ih

end Formula

/-! ### Equal formulas -/

section Equality

variable [BEq ν]

/-- Equal terms have the same path. -/
theorem Term.path?_eq_of_same {a b : Term ν} (same : (a == b) = true) : a.path? = b.path? := by
  cases a with
  | path target =>
    cases b with
    | path => exact congrArg some (of_decide_eq_true same)
    | size | value => cases same
  | size target =>
    cases b with
    | size => exact congrArg some (of_decide_eq_true same)
    | path | value => cases same
  | value literal =>
    cases b with
    | value => rfl
    | path | size => cases same

/-- Equal lists of terms have the same paths. -/
theorem Term.filterMap_path?_eq_of_same {terms others : List (Term ν)}
    (same : (terms == others) = true) :
    terms.filterMap Term.path? = others.filterMap Term.path? := by
  induction terms generalizing others with
  | nil =>
    cases others with
    | nil => rfl
    | cons => cases same
  | cons term terms ih =>
    cases others with
    | nil => cases same
    | cons other others =>
      rw [List.cons_beq_cons, Bool.and_eq_true] at same
      rw [List.filterMap_cons, List.filterMap_cons, Term.path?_eq_of_same same.1, ih same.2]

/-- Equal paths with equal terms behind them have the same paths. -/
theorem Term.cons_path?_eq_of_same {target target' : Path} {term other : Term ν}
    (same : (decide (target = target') && term == other) = true) :
    target :: [term].filterMap Term.path? = target' :: [other].filterMap Term.path? := by
  obtain ⟨first, last⟩ := Bool.and_eq_true_iff.1 same
  have lists : ([term] == [other]) = true := by simp [last]
  rw [of_decide_eq_true first, Term.filterMap_path?_eq_of_same lists]

/-- Equal tests have the same paths. -/
theorem Test.paths_eq_of_same {a b : Test ν} (same : (a == b) = true) : a.paths = b.paths := by
  -- Only tests of one kind are equal, and their terms are.
  cases a with
  | compare left comparison right =>
    cases b with
    | compare left' comparison' right' =>
      obtain ⟨first, last⟩ := Bool.and_eq_true_iff.1 same
      exact Term.filterMap_path?_eq_of_same
        (by simp [(Bool.and_eq_true_iff.1 first).1, last])
    | _ => cases same
  | between term lower upper =>
    cases b with
    | between term' lower' upper' =>
      obtain ⟨first, last⟩ := Bool.and_eq_true_iff.1 same
      obtain ⟨first, middle⟩ := Bool.and_eq_true_iff.1 first
      exact Term.filterMap_path?_eq_of_same (by simp [first, middle, last])
    | _ => cases same
  | among term first others =>
    cases b with
    | among term' first' others' =>
      obtain ⟨front, last⟩ := Bool.and_eq_true_iff.1 same
      obtain ⟨front, middle⟩ := Bool.and_eq_true_iff.1 front
      exact Term.filterMap_path?_eq_of_same
        (by rw [List.cons_beq_cons, List.cons_beq_cons, front, middle, last]; rfl)
    | _ => cases same
  | «exists» target negated =>
    cases b with
    | «exists» target' negated' =>
      obtain ⟨first, _⟩ := Bool.and_eq_true_iff.1 same
      rw [paths, paths, of_decide_eq_true first]
    | _ => cases same
  | hasType target code =>
    cases b with
    | hasType => exact Term.cons_path?_eq_of_same same
    | _ => cases same
  | beginsWith target start =>
    cases b with
    | beginsWith => exact Term.cons_path?_eq_of_same same
    | _ => cases same
  | contains target element =>
    cases b with
    | contains => exact Term.cons_path?_eq_of_same same
    | _ => cases same

/-- Lists of equal formulas have the same paths, if each of the formulas has. -/
theorem Formula.memberPaths_eq_of_same {members others : List (Formula ν)}
    (each : ∀ member ∈ members, ∀ other, (member == other) = true → member.paths = other.paths)
    (same : sameMembers members others = true) : memberPaths members = memberPaths others := by
  induction members generalizing others with
  | nil =>
    cases others with
    | nil => rfl
    | cons => cases same
  | cons member members ih =>
    cases others with
    | nil => cases same
    | cons other others =>
      rw [List.forall_mem_cons] at each
      obtain ⟨first, rest⟩ := Bool.and_eq_true_iff.1 same
      rw [memberPaths, memberPaths, each.1 other first, ih each.2 rest]

/-- **Equal formulas have the same paths.** -/
theorem Formula.paths_eq_of_same {a b : Formula ν} (same : (a == b) = true) :
    a.paths = b.paths := by
  induction a generalizing b with
  | test leaf =>
    cases b with
    | test leaf' => exact Test.paths_eq_of_same same
    | group | not => cases same
  | not formula ih =>
    cases b with
    | not other =>
      show formula.paths = other.paths
      exact ih same
    | test | group => cases same
  | group connective members ih =>
    cases b with
    | test | not => cases same
    | group connective' others =>
      obtain ⟨_, rest⟩ := Bool.and_eq_true_iff.1 same
      exact memberPaths_eq_of_same (fun member mem _ => ih member mem) rest

end Equality

/-! ### Reading paths -/

/-- What is related one for one is related to something. -/
theorem exists_of_forall₂ {α β : Type} {related : α → β → Prop} {first : List α} {second : List β}
    (pairs : List.Forall₂ related first second) : ∀ a ∈ first, ∃ b, related a b := by
  induction pairs with
  | nil => simp
  | cons pair _ ih => exact List.forall_mem_cons.2 ⟨⟨_, pair⟩, ih⟩

/-- Whether texts are parsed as paths, one for one. -/
abbrev Path.ParseAll (texts : List String) (paths : List Path) : Prop :=
  List.Forall₂ (fun text path => Path.parse text = .ok path) texts paths

/-- Texts that are parsed begin with the roots of their paths. -/
theorem Path.map_rootText_of_parseAll {texts : List String} {paths : List Path}
    (parses : Path.ParseAll texts paths) : texts.map Path.rootText = paths.map Path.root := by
  induction parses with
  | nil => rfl
  | cons first _ ih => rw [List.map_cons, List.map_cons, ih, Path.root_of_parse first]

/-- Texts that can be parsed one by one can be parsed one for one. -/
theorem Path.exists_parseAll {texts : List String} {holds : Path → Prop}
    (each : ∀ text ∈ texts, ∃ path, Path.parse text = .ok path ∧ holds path) :
    ∃ paths, Path.ParseAll texts paths ∧ ∀ path ∈ paths, holds path := by
  induction texts with
  | nil => exact ⟨[], .nil, nofun⟩
  | cons text texts ih =>
    rw [List.forall_mem_cons] at each
    obtain ⟨path, parses, first⟩ := each.1
    obtain ⟨paths, rest, others⟩ := ih each.2
    exact ⟨path :: paths, .cons parses rest, List.forall_mem_cons.2 ⟨first, others⟩⟩

open Compile

/-- A path is read if it is parsed. -/
theorem Path.read_eq_ok_iff {text : String} {path : Path} :
    Path.read text = .ok path ↔ Path.parse text = .ok path := by
  rw [Path.read]
  split
  · next parses =>
    rw [parses]
    constructor
    · rintro ⟨⟩
      rfl
    · rintro ⟨⟩
      rfl
  · next refused =>
    rw [refused]
    constructor
    · rintro ⟨⟩
    · rintro ⟨⟩

/-- A path is not read if it is not parsed. -/
theorem Path.read_eq_error_iff {text : String} {refusal : CompileError} :
    Path.read text = .error refusal ↔
      ∃ defect, Path.parse text = .error defect ∧ refusal = .malformed text (.path defect) := by
  rw [Path.read]
  split
  · next parses =>
    rw [parses]
    constructor
    · rintro ⟨⟩
    · rintro ⟨_, ⟨⟩, _⟩
  · next defect refused =>
    rw [refused]
    constructor
    · rintro ⟨⟩
      exact ⟨defect, rfl, rfl⟩
    · rintro ⟨_, ⟨⟩, rfl⟩
      rfl

/-- The paths of operands are parsed as those of the terms that they say. -/
theorem Operand.parseAll_of_read {operands : List Operand} {terms : List (Term AttributeValue)}
    (reads : Operand.AllReadAs operands terms) :
    Path.ParseAll (operands.filterMap Operand.path?) (terms.filterMap Term.path?) := by
  induction reads with
  | nil => exact .nil
  | @cons operand term operands terms first _ ih =>
    cases operand with
    | path text | size text =>
      obtain ⟨target, reads, same⟩ := bind_eq_ok_iff.1 first
      cases same
      exact .cons (Path.read_eq_ok_iff.1 reads) ih
    | value literal =>
      cases first
      exact ih

namespace Condition

variable {settings : Settings}

theorem memberPaths_eq_flatMap (members : List Condition) :
    memberPaths members = members.flatMap paths := by
  induction members with
  | nil => rfl
  | cons member members ih => rw [memberPaths, ih, List.flatMap_cons]

/-- The paths of a condition are those of its leaves. -/
theorem paths_eq_filterMap (condition : Condition) :
    condition.paths = condition.leaves.filterMap Operand.path? := by
  induction condition with
  | test condition test =>
    cases condition with
    | group | not => cases test
    | _ => rfl
  | not condition ih => exact ih
  | group connective members ih =>
    rw [paths, memberPaths_eq_flatMap, leaves, memberLeaves_eq_flatMap, List.filterMap_flatMap]
    exact List.flatMap_congr ih

/-- **The paths of a condition are parsed as those of the formula that it says.** -/
theorem parse_paths_of_read {condition : Condition} {formula : Formula AttributeValue}
    (reads : condition.read settings = .ok formula) :
    Path.ParseAll condition.paths formula.paths := by
  rw [paths_eq_filterMap, Formula.paths_eq_filterMap]
  exact Operand.parseAll_of_read (leaves_of_read reads)

/-! ### Superfluous groups -/

/-- The paths of members, one list of members behind the other. -/
theorem memberPaths_append (first second : List Condition) :
    memberPaths (first ++ second) = memberPaths first ++ memberPaths second := by
  rw [memberPaths_eq_flatMap, memberPaths_eq_flatMap, memberPaths_eq_flatMap, List.flatMap_append]

/-- Taking groups out of a condition leaves its paths as they are. -/
theorem paths_normal (condition : Condition) : condition.normal.paths = condition.paths := by
  rw [paths_eq_filterMap, leaves_normal, ← paths_eq_filterMap]

/-- The top-level attributes of a condition are what its paths begin with. -/
theorem mem_roots {condition : Condition} {root : String} :
    root ∈ condition.roots ↔ root ∈ condition.paths.map Path.rootText := by
  rw [roots, Members.mem_distinct]

end Condition

end ItemExpr
