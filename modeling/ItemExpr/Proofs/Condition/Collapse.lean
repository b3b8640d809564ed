import ItemExpr.Proofs.Condition.Reading
import Mathlib.Logic.Relation

/-! # Taking groups out of conditions

`Condition.Collapse` takes one superfluous group out of a condition: a group of one member is
replaced by that member, or the members of a group take its place in a group of the same connective.
The normal form of a condition is reached by such steps (`collapses_normal`), no step changes what a
condition says to be true (`eval_of_collapses`), and what a normal form says is flat
(`flat_of_read_normal`). -/

namespace ItemExpr.Condition

open Relation

/-- **One superfluous group is taken out** of a condition. -/
inductive Collapse : Condition → Condition → Prop
  /-- A group of one member is that member. -/
  | single (connective : Connective) (only : Condition) :
      Collapse (.group connective [only]) only
  /-- The members of a group stand in a group of the same connective. -/
  | splice (connective : Connective) (before inner after : List Condition)
      (nonempty : inner ≠ []) :
      Collapse (.group connective (before ++ .group connective inner :: after))
        (.group connective (before ++ inner ++ after))
  /-- A group is taken out of a member. -/
  | member (connective : Connective) (before after : List Condition)
      {condition condition' : Condition} (step : Collapse condition condition') :
      Collapse (.group connective (before ++ condition :: after))
        (.group connective (before ++ condition' :: after))
  /-- A group is taken out behind a NOT. -/
  | not {condition condition' : Condition} (step : Collapse condition condition') :
      Collapse (.not condition) (.not condition')

/-- Whether superfluous groups are taken out of a condition, any number of them. -/
abbrev Collapses : Condition → Condition → Prop := ReflTransGen Collapse

/-! ### The normal form -/

theorem Collapses.member {condition condition' : Condition}
    (steps : Collapses condition condition') (connective : Connective)
    (before after : List Condition) :
    Collapses (.group connective (before ++ condition :: after))
      (.group connective (before ++ condition' :: after)) := by
  induction steps with
  | refl => exact ReflTransGen.refl
  | tail _ step ih => exact ih.tail (.member connective before after step)

theorem Collapses.not {condition condition' : Condition} (steps : Collapses condition condition') :
    Collapses (.not condition) (.not condition') := by
  induction steps with
  | refl => exact ReflTransGen.refl
  | tail _ step ih => exact ih.tail (.not step)

/-- Either a condition is a group of a connective that has members, and these are spliced, or it is
one member as it is. -/
theorem splice_cases (connective : Connective) (condition : Condition) :
    (∃ members, members ≠ [] ∧ condition = .group connective members ∧
      splice connective condition = members) ∨
    ((∀ members, condition = .group connective members → members = []) ∧
      splice connective condition = [condition]) := by
  unfold splice
  split
  · next connective' first rest =>
    by_cases same : connective' = connective
    · subst same
      exact Or.inl ⟨first :: rest, List.cons_ne_nil first rest, rfl, if_pos rfl⟩
    · refine Or.inr ⟨?_, if_neg same⟩
      rintro members ⟨⟩
      exact absurd rfl same
  · next other =>
    refine Or.inr ⟨fun members same => ?_, rfl⟩
    cases members with
    | nil => rfl
    | cons first rest => exact absurd same (other connective first rest)

/-- A member is replaced by what it is spliced as. -/
theorem collapses_splice (connective : Connective) (before after : List Condition)
    (condition : Condition) :
    Collapses (.group connective (before ++ condition :: after))
      (.group connective (before ++ splice connective condition ++ after)) := by
  rcases splice_cases connective condition with
    ⟨members, nonempty, rfl, spliced⟩ | ⟨_, spliced⟩
  · rw [spliced]
    exact ReflTransGen.single (.splice connective before members after nonempty)
  · rw [spliced, List.append_assoc]
    exact ReflTransGen.refl

theorem normal_of_isTest {condition : Condition} (test : condition.isTest = true) :
    condition.normal = condition := by
  cases condition with
  | group | not => cases test
  | _ => rw [normal] <;> simp

theorem normal_group_of_length {connective : Connective} {members : List Condition}
    (other : members.length ≠ 1) :
    normal (.group connective members) =
      .group connective (normalMembers connective members) := by
  match members, other with
  | [], _ => rw [normal]; simp
  | _ :: _ :: _, _ => rw [normal]; simp

/-- The normal forms of the members of a group, those behind `before`, are reached one by one. -/
theorem collapses_normalMembers (connective : Connective) {members : List Condition}
    (normalize : ∀ member ∈ members, Collapses member member.normal) (before : List Condition) :
    Collapses (.group connective (before ++ members))
      (.group connective (before ++ normalMembers connective members)) := by
  induction members generalizing before with
  | nil =>
    rw [normalMembers_nil]
  | cons member members ih =>
    rw [List.forall_mem_cons] at normalize
    rw [normalMembers_cons, ← List.append_assoc]
    exact (normalize.1.member connective before members).trans
      ((collapses_splice connective before members member.normal).trans
        (ih normalize.2 (before ++ splice connective member.normal)))

/-- The normal form of a condition is reached by taking groups out. -/
theorem collapses_normal (condition : Condition) : Collapses condition condition.normal := by
  induction condition with
  | test condition test =>
    rw [normal_of_isTest test]
  | group connective members ih =>
    -- A group of one member is that member; in any other group the members are spliced.
    by_cases single : members.length = 1
    · obtain ⟨only, rfl⟩ := List.length_eq_one_iff.1 single
      rw [normal_group_singleton]
      exact ReflTransGen.head (.single connective only) (ih only (List.mem_singleton_self only))
    · rw [normal_group_of_length single]
      exact collapses_normalMembers connective ih []
  | not condition ih =>
    rw [normal_not]
    exact ih.not

/-! ### Collecting from conditions -/

section Collect

variable {α : Type} {collect : Condition → List α}
  (group : ∀ connective members,
    collect (.group connective members) = members.flatMap collect)
  (not : ∀ condition, collect (.not condition) = collect condition)

include group not

/-- What is collected from tests, whatever the groups, is the same after a superfluous group is
taken out. -/
theorem collect_of_collapse {condition condition' : Condition}
    (step : Collapse condition condition') : collect condition' = collect condition := by
  induction step with
  | single connective only => rw [group, List.flatMap_singleton]
  | splice connective before inner after nonempty =>
    rw [group, group, List.flatMap_append, List.flatMap_append, List.flatMap_append,
      List.flatMap_cons, group, List.append_assoc]
  | member connective before after step ih =>
    rw [group, group, List.flatMap_append, List.flatMap_append, List.flatMap_cons,
      List.flatMap_cons, ih]
  | not step ih => rw [not, not, ih]

/-- What is collected from tests, whatever the groups, is collected from the normal form. -/
theorem collect_normal (condition : Condition) :
    collect condition.normal = collect condition := by
  have steps := collapses_normal condition
  generalize condition.normal = result at steps
  induction steps with
  | refl => rfl
  | tail _ step ih => rw [collect_of_collapse group not step, ih]

end Collect

/-! ### Reading groups -/

variable {settings : Settings}

/-- Members are read one after the other. -/
theorem readMembers_append_iff {first second : List Condition}
    {formulas : List (Formula AttributeValue)} :
    readMembers settings (first ++ second) = .ok formulas ↔
      ∃ read read', readMembers settings first = .ok read ∧
        readMembers settings second = .ok read' ∧ formulas = read ++ read' := by
  induction first generalizing formulas with
  | nil =>
    rw [List.nil_append, readMembers]
    constructor
    · intro reads
      exact ⟨[], formulas, rfl, reads, rfl⟩
    · rintro ⟨_, _, ⟨⟩, reads, rfl⟩
      exact reads
  | cons member first ih =>
    rw [List.cons_append, readMembers, readMembers]
    simp only [bind_eq_ok_iff, ih]
    constructor
    · rintro ⟨formula, reads, _, ⟨read, read', reads', reads'', rfl⟩, ⟨⟩⟩
      exact ⟨formula :: read, read', ⟨formula, reads, read, reads', rfl⟩, reads'', rfl⟩
    · rintro ⟨_, read', ⟨formula, reads, read, reads', ⟨⟩⟩, reads'', rfl⟩
      exact ⟨formula, reads, read ++ read', ⟨read, read', reads', reads'', rfl⟩, rfl⟩

theorem readMembers_cons_iff {member : Condition} {members : List Condition}
    {formulas : List (Formula AttributeValue)} :
    readMembers settings (member :: members) = .ok formulas ↔
      ∃ formula read, member.read settings = .ok formula ∧
        readMembers settings members = .ok read ∧ formulas = formula :: read := by
  rw [readMembers]
  exact cons_eq_ok_iff

/-- No member that can be read is an empty group. -/
theorem any_isEmptyGroup_of_readMembers {members : List Condition}
    {formulas : List (Formula AttributeValue)}
    (reads : readMembers settings members = .ok formulas) :
    members.any isEmptyGroup = false := by
  induction members generalizing formulas with
  | nil => rfl
  | cons member members ih =>
    obtain ⟨formula, read, first, rest, rfl⟩ := readMembers_cons_iff.1 reads
    rw [List.any_cons, ih rest, Bool.or_false]
    cases member with
    | group connective inner =>
      -- An empty group cannot be read.
      cases inner with
      | nil => cases first
      | cons _ _ => rfl
    | _ => rfl

/-- A group is read exactly if it has members and all of them are read. -/
theorem read_group_iff {connective : Connective} {members : List Condition}
    {formula : Formula AttributeValue} :
    (Condition.group connective members).read settings = .ok formula ↔
      members ≠ [] ∧ ∃ formulas, readMembers settings members = .ok formulas ∧
        formula = .group connective formulas := by
  rw [read]
  constructor
  · intro reads
    split at reads
    · cases reads
    · next present =>
      obtain ⟨formulas, reads', ⟨⟩⟩ := bind_eq_ok_iff.1 reads
      refine ⟨?_, formulas, reads', rfl⟩
      rintro rfl
      exact present rfl
  · rintro ⟨nonempty, formulas, reads, rfl⟩
    rw [any_isEmptyGroup_of_readMembers reads, if_neg (by simpa using nonempty)]
    exact bind_eq_ok_iff.2 ⟨formulas, reads, rfl⟩

/-- Only a group of a connective says a group of it. -/
theorem eq_group_of_read {condition : Condition} {connective : Connective}
    {formulas : List (Formula AttributeValue)}
    (reads : condition.read settings = .ok (.group connective formulas)) :
    ∃ members, condition = .group connective members ∧ members ≠ [] ∧
      readMembers settings members = .ok formulas := by
  have group := isGroup_of_read reads
  cases condition with
  | group connective' members =>
    obtain ⟨nonempty, formulas', reads', same⟩ := read_group_iff.1 reads
    cases same
    exact ⟨members, rfl, nonempty, reads'⟩
  | _ => cases group

/-! ### What a normal form says -/

/-- What members are spliced as says flat formulas, none of which is a group of the connective. -/
theorem flatMembers_of_read_splice {connective : Connective} {condition : Condition}
    {formulas : List (Formula AttributeValue)}
    (flat : ∀ formula, condition.read settings = .ok formula → formula.Flat)
    (reads : readMembers settings (splice connective condition) = .ok formulas) :
    Formula.FlatMembers connective formulas ∧ 1 ≤ formulas.length := by
  rcases splice_cases connective condition with
    ⟨members, nonempty, rfl, spliced⟩ | ⟨other, spliced⟩
  · rw [spliced] at reads
    obtain ⟨several, flatMembers⟩ :=
      flat _ (read_group_iff.2 ⟨nonempty, formulas, reads, rfl⟩)
    exact ⟨flatMembers, by omega⟩
  · -- Nothing else is spliced, so that it is one member and no group of the connective.
    rw [spliced] at reads
    obtain ⟨formula, _, read, ⟨⟩, rfl⟩ := readMembers_cons_iff.1 reads
    rw [Formula.FlatMembers]
    refine ⟨⟨⟨flat formula read, ?_⟩, trivial⟩, Nat.le_refl _⟩
    cases formula with
    | group connective' formulas =>
      refine decide_eq_false ?_
      rintro rfl
      obtain ⟨members, same, nonempty, _⟩ := eq_group_of_read read
      exact nonempty (other members same)
    | _ => rfl

/-- What the normal forms of members say is flat, and it is no less than the members. -/
theorem flatMembers_of_read_normalMembers {connective : Connective} {members : List Condition}
    (flat : ∀ member ∈ members, ∀ formula,
      member.normal.read settings = .ok formula → formula.Flat)
    {formulas : List (Formula AttributeValue)}
    (reads : readMembers settings (normalMembers connective members) = .ok formulas) :
    Formula.FlatMembers connective formulas ∧ members.length ≤ formulas.length := by
  induction members generalizing formulas with
  | nil =>
    rw [normalMembers_nil, readMembers] at reads
    cases reads
    exact ⟨trivial, Nat.le_refl _⟩
  | cons member members ih =>
    rw [List.forall_mem_cons] at flat
    rw [normalMembers_cons] at reads
    obtain ⟨front, behind, reads', reads'', rfl⟩ := readMembers_append_iff.1 reads
    obtain ⟨flatFront, some⟩ := flatMembers_of_read_splice flat.1 reads'
    obtain ⟨flatBehind, length⟩ := ih flat.2 reads''
    rw [Formula.flatMembers_iff] at flatFront flatBehind ⊢
    refine ⟨List.forall_mem_append.2 ⟨flatFront, flatBehind⟩, ?_⟩
    rw [List.length_cons, List.length_append]
    omega

/-- What a normal form says is flat. -/
theorem flat_of_read_normal {condition : Condition} {formula : Formula AttributeValue}
    (reads : condition.normal.read settings = .ok formula) : formula.Flat := by
  induction condition generalizing formula with
  | test condition test =>
    rw [normal_of_isTest test] at reads
    obtain ⟨leaf, rfl⟩ := eq_test_of_read test reads
    trivial
  | group connective members ih =>
    by_cases single : members.length = 1
    · obtain ⟨only, rfl⟩ := List.length_eq_one_iff.1 single
      rw [normal_group_singleton] at reads
      exact ih only (List.mem_singleton_self only) reads
    · rw [normal_group_of_length single] at reads
      obtain ⟨nonempty, formulas, reads', rfl⟩ := read_group_iff.1 reads
      obtain ⟨flatMembers, length⟩ :=
        flatMembers_of_read_normalMembers (fun member mem _ => ih member mem) reads'
      -- There were two members or more, and none of them has been lost.
      have some : members ≠ [] := by
        rintro rfl
        exact nonempty (normalMembers_nil connective)
      have := List.length_pos_of_ne_nil some
      exact ⟨by omega, flatMembers⟩
  | not condition ih =>
    rw [normal_not, read] at reads
    obtain ⟨inner, reads', ⟨⟩⟩ := bind_eq_ok_iff.1 reads
    show inner.Flat
    exact ih reads'

/-! ### Truth -/

/-- Taking out a group does not change the truth of what is said. -/
theorem eval_of_collapse {condition condition' : Condition}
    (step : Collapse condition condition') {formula : Formula AttributeValue}
    (reads : condition'.read settings = .ok formula) :
    ∃ original, condition.read settings = .ok original ∧
      ∀ holds, original.eval holds = formula.eval holds := by
  induction step generalizing formula with
  | single connective only =>
    refine ⟨.group connective [formula], ?_, ?_⟩
    · have member : readMembers settings [only] = .ok [formula] :=
        readMembers_cons_iff.2 ⟨formula, [], reads, rfl, rfl⟩
      exact read_group_iff.2 ⟨by simp, [formula], member, rfl⟩
    · intro holds
      cases connective <;> simp [Formula.eval, Formula.evalMembers]
  | splice connective before inner after nonempty =>
    obtain ⟨_, formulas, members, rfl⟩ := read_group_iff.1 reads
    obtain ⟨_, behind, members', last, rfl⟩ := readMembers_append_iff.1 members
    obtain ⟨front, middle, first, spliced, rfl⟩ := readMembers_append_iff.1 members'
    -- The members in the middle are those of the group that was spliced.
    have group : (Condition.group connective inner).read settings =
        .ok (.group connective middle) :=
      read_group_iff.2 ⟨nonempty, middle, spliced, rfl⟩
    refine ⟨.group connective (front ++ .group connective middle :: behind), ?_, ?_⟩
    · refine read_group_iff.2 ⟨by simp, _, readMembers_append_iff.2 ⟨front, _, first, ?_, rfl⟩, rfl⟩
      exact readMembers_cons_iff.2 ⟨_, behind, group, last, rfl⟩
    · intro holds
      cases connective <;> simp [Formula.eval, Formula.evalMembers_eq_map]
  | member connective before after step ih =>
    obtain ⟨_, formulas, members, rfl⟩ := read_group_iff.1 reads
    obtain ⟨front, _, first, members', rfl⟩ := readMembers_append_iff.1 members
    obtain ⟨formula, behind, middle, last, rfl⟩ := readMembers_cons_iff.1 members'
    obtain ⟨original, middle', same⟩ := ih middle
    refine ⟨.group connective (front ++ original :: behind), ?_, ?_⟩
    · refine read_group_iff.2 ⟨by simp, _, readMembers_append_iff.2 ⟨front, _, first, ?_, rfl⟩, rfl⟩
      exact readMembers_cons_iff.2 ⟨original, behind, middle', last, rfl⟩
    · intro holds
      cases connective <;> simp [Formula.eval, Formula.evalMembers_eq_map, same]
  | not step ih =>
    rw [read] at reads
    obtain ⟨formula, inner, ⟨⟩⟩ := bind_eq_ok_iff.1 reads
    obtain ⟨original, inner', same⟩ := ih inner
    refine ⟨.not original, ?_, ?_⟩
    · rw [read]
      exact bind_eq_ok_iff.2 ⟨original, inner', rfl⟩
    · intro holds
      rw [Formula.eval, Formula.eval, same]

/-- Taking out groups does not change the truth of what is said. -/
theorem eval_of_collapses {condition condition' : Condition}
    (steps : Collapses condition condition') {formula : Formula AttributeValue}
    (reads : condition'.read settings = .ok formula) :
    ∃ original, condition.read settings = .ok original ∧
      ∀ holds, original.eval holds = formula.eval holds := by
  induction steps generalizing formula with
  | refl => exact ⟨formula, reads, fun _ => rfl⟩
  | tail _ step ih =>
    obtain ⟨between, reads', same⟩ := eval_of_collapse step reads
    obtain ⟨original, reads'', same'⟩ := ih reads'
    exact ⟨original, reads'', fun holds => (same' holds).trans (same holds)⟩

end ItemExpr.Condition
