import ItemExpr.Proofs.Condition.Paths
import ItemExpr.Request.KeyCondition

/-! # The members of ANDs

`Condition.conjuncts` goes through an AND at any depth and collects its members as they were
written. If the condition can be read, these are the members that the normal form of the condition
is spliced as (`Condition.splice_normal_of_conjuncts`), and they say the members of the AND that the
normal form says (`Condition.readMembers_conjuncts`). -/

namespace ItemExpr

open Compile

/-- The members of an AND, or the formula itself if it is none. -/
def Formula.conjuncts {ν : Type} : Formula ν → List (Formula ν)
  | .group .and members => members
  | formula => [formula]

namespace Condition

variable {settings : Settings}

/-- A test is its own only member. -/
theorem conjuncts_of_isTest {condition : Condition} (test : condition.isTest = true) :
    condition.conjuncts = .ok [condition] := by
  cases condition with
  | group | not => cases test
  | _ => rfl

theorem splice_of_isTest {condition : Condition} (test : condition.isTest = true)
    (connective : Connective) : splice connective condition = [condition] := by
  cases condition with
  | group | not => cases test
  | _ => rfl

/-- The members of some conditions are those of the first one and those of the others. -/
theorem memberConjuncts_cons_eq_ok {member : Condition} {members conditions : List Condition}
    (collected : memberConjuncts (member :: members) = .ok conditions) :
    ∃ first rest, conjuncts member = .ok first ∧ memberConjuncts members = .ok rest ∧
      conditions = first ++ rest := by
  rw [memberConjuncts] at collected
  obtain ⟨first, ofMember, collected⟩ := bind_eq_ok_iff.1 collected
  obtain ⟨rest, ofMembers, same⟩ := bind_eq_ok_iff.1 collected
  cases same
  exact ⟨first, rest, ofMember, ofMembers, rfl⟩

/-- What is spliced says the members of the AND that the condition says. -/
theorem readMembers_splice_iff {condition : Condition}
    {formulas : List (Formula AttributeValue)} :
    readMembers settings (splice .and condition) = .ok formulas ↔
      ∃ said, condition.read settings = .ok said ∧ formulas = said.conjuncts := by
  rcases splice_cases .and condition with
    ⟨members, nonempty, rfl, spliced⟩ | ⟨other, spliced⟩
  · rw [spliced]
    constructor
    · intro reads
      exact ⟨_, read_group_iff.2 ⟨nonempty, formulas, reads, rfl⟩, rfl⟩
    · rintro ⟨_, reads, rfl⟩
      obtain ⟨_, formulas, reads', rfl⟩ := read_group_iff.1 reads
      exact reads'
  · -- What is not spliced says no AND.
    have alone : ∀ said, condition.read settings = .ok said → said.conjuncts = [said] := by
      intro said reads
      cases said with
      | group connective formulas =>
        cases connective with
        | and =>
          obtain ⟨members, same, nonempty, _⟩ := eq_group_of_read reads
          exact absurd (other members same) nonempty
        | or => rfl
      | test | not => rfl
    rw [spliced, readMembers_cons_iff]
    constructor
    · rintro ⟨said, _, reads, ⟨⟩, rfl⟩
      exact ⟨said, reads, (alone said reads).symm⟩
    · rintro ⟨said, reads, rfl⟩
      exact ⟨said, [], reads, rfl, alone said reads⟩

/-- The members of some conditions that can be read are their normal forms, spliced, if that is so
for each of them. -/
theorem normalMembers_of_memberConjuncts {members conditions : List Condition}
    {formulas : List (Formula AttributeValue)}
    (each : ∀ member ∈ members, ∀ conditions said, member.conjuncts = .ok conditions →
      member.normal.read settings = .ok said → splice .and member.normal = conditions)
    (collected : memberConjuncts members = .ok conditions)
    (reads : readMembers settings (normalMembers .and members) = .ok formulas) :
    normalMembers .and members = conditions := by
  induction members generalizing conditions formulas with
  | nil =>
    cases collected
    rw [normalMembers_nil]
  | cons member members ih =>
    rw [List.forall_mem_cons] at each
    obtain ⟨first, rest, ofMember, ofMembers, rfl⟩ := memberConjuncts_cons_eq_ok collected
    rw [normalMembers_cons] at reads ⊢
    obtain ⟨front, behind, reads', reads'', _⟩ := readMembers_append_iff.1 reads
    obtain ⟨said, read, _⟩ := readMembers_splice_iff.1 reads'
    rw [each.1 first said ofMember read, ih each.2 ofMembers reads'']

/-- The members of a condition that can be read are those that its normal form is spliced as. -/
theorem splice_normal_of_conjuncts {condition : Condition} {conditions : List Condition}
    {said : Formula AttributeValue} (collected : condition.conjuncts = .ok conditions)
    (reads : condition.normal.read settings = .ok said) :
    splice .and condition.normal = conditions := by
  induction condition generalizing conditions said with
  | test condition test =>
    rw [conjuncts_of_isTest test] at collected
    cases collected
    rw [normal_of_isTest test, splice_of_isTest test]
  | not condition => cases collected
  | group connective members ih =>
    cases connective with
    | or => cases collected
    | and =>
      rw [conjuncts] at collected
      by_cases single : members.length = 1
      · obtain ⟨only, rfl⟩ := List.length_eq_one_iff.1 single
        rw [normal_group_singleton] at reads ⊢
        obtain ⟨first, _, ofOnly, ⟨⟩, rfl⟩ := memberConjuncts_cons_eq_ok collected
        rw [List.append_nil]
        exact ih only (List.mem_singleton_self only) ofOnly reads
      · rw [normal_group_of_length single] at reads ⊢
        obtain ⟨nonempty, formulas, reads', _⟩ := read_group_iff.1 reads
        have members' := normalMembers_of_memberConjuncts
          (fun member mem conditions said => ih member mem) collected reads'
        rcases splice_cases .and (.group .and (normalMembers .and members)) with
          ⟨_, _, same, spliced⟩ | ⟨other, _⟩
        · cases same
          rw [spliced, members']
        · exact absurd (other _ rfl) nonempty

/-- **The members of a key condition say the members of what is sent.** -/
theorem readMembers_conjuncts {condition : Condition} {conditions : List Condition}
    {said : Formula AttributeValue} (collected : condition.conjuncts = .ok conditions)
    (reads : condition.normal.read settings = .ok said) :
    readMembers settings conditions = .ok said.conjuncts := by
  rw [← splice_normal_of_conjuncts collected reads]
  exact readMembers_splice_iff.2 ⟨said, reads, rfl⟩

/-- The members of a condition have its paths. -/
theorem memberPaths_conjuncts {condition : Condition} {conditions : List Condition}
    (collected : condition.conjuncts = .ok conditions) :
    memberPaths conditions = condition.paths := by
  induction condition generalizing conditions with
  | test condition test =>
    rw [conjuncts_of_isTest test] at collected
    cases collected
    exact List.append_nil _
  | not condition => cases collected
  | group connective members ih =>
    cases connective with
    | or => cases collected
    | and =>
      rw [conjuncts] at collected
      rw [paths]
      induction members generalizing conditions with
      | nil =>
        cases collected
        rfl
      | cons member members ih' =>
        rw [List.forall_mem_cons] at ih
        obtain ⟨first, rest, ofMember, ofMembers, rfl⟩ := memberConjuncts_cons_eq_ok collected
        rw [memberPaths_append, memberPaths, ih.1 ofMember, ih' ih.2 ofMembers]

end Condition

end ItemExpr
