import ItemExpr.Proofs.Request.KeyCondition

/-! # What the checks of a query accept

The terms of a key condition and the target of a query, said without the checks: which conditions
are terms (`Condition.IsKeyTerm`), which members the ANDs of a condition have
(`Condition.andMembers`), and whose key counts (`TableSchema.IsTarget`). Each check has a result
exactly if what it looks for is there (`checkKeyCondition_eq_ok_iff`,
`TableSchema.keyOf_eq_ok_iff`). -/

namespace ItemExpr

open Compile

/-! ### Terms and members -/

namespace Condition

/-- Whether a condition is a **term of a key condition** on a path: a comparison other than `<>`
with a literal, bounds that are literals, or how it begins. -/
inductive IsKeyTerm : Condition → KeyTerm → Prop where
  /-- The path in front of the comparison, and a literal behind it. -/
  | compare (path : String) (comparison : Comparison) (literal : AttributeValue)
    (ordered : comparison ≠ .ne) :
    IsKeyTerm (.compare (.path path) comparison (.value literal)) ⟨path, comparison = .eq⟩
  /-- The path between two literals. -/
  | between (path : String) (lower upper : AttributeValue) :
    IsKeyTerm (.between (.path path) (.value lower) (.value upper)) ⟨path, false⟩
  /-- The path begins with a literal. -/
  | beginsWith (path : String) (start : AttributeValue) :
    IsKeyTerm (.beginsWith path (.value start)) ⟨path, false⟩

mutual

/-- The **members of an AND**, at any depth and in order; any other condition is its own only
member. -/
def andMembers : Condition → List Condition
  | .group .and members => andMembersAll members
  | condition => [condition]

/-- The members of some conditions, in order. -/
def andMembersAll : List Condition → List Condition
  | [] => []
  | member :: members => andMembers member ++ andMembersAll members

end

theorem andMembers_of_isTest {condition : Condition} (test : condition.isTest = true) :
    condition.andMembers = [condition] := by
  cases condition with
  | group | not => cases test
  | _ => rfl

/-- A condition is a term exactly if the check finds the term. -/
theorem keyTerm_eq_ok_iff {condition : Condition} {term : KeyTerm} :
    condition.keyTerm = .ok term ↔ condition.IsKeyTerm term := by
  constructor
  · intro found
    unfold keyTerm at found
    split at found
    · next path comparison literal =>
      split at found
      · cases found
      · next ordered =>
        cases found
        exact .compare path comparison literal ordered
    · next path lower upper =>
      cases found
      exact .between path lower upper
    · next path start =>
      cases found
      exact .beginsWith path start
    · cases found
  · intro isTerm
    cases isTerm with
    | compare path comparison literal ordered => exact if_neg ordered
    | between path lower upper => rfl
    | beginsWith path start => rfl

/-- A term is a test. -/
theorem IsKeyTerm.isTest {condition : Condition} {term : KeyTerm}
    (isTerm : condition.IsKeyTerm term) : condition.isTest = true := by
  cases isTerm <;> rfl

/-- Terms are tests. -/
theorem isTest_of_forall₂_isKeyTerm {conditions : List Condition} {terms : List KeyTerm}
    (termed : List.Forall₂ IsKeyTerm conditions terms) :
    ∀ condition ∈ conditions, condition.isTest = true := by
  have both := termed.imp fun _ _ isTerm => And.intro isTerm.isTest isTerm
  exact ((List.forall₂_and_left _ _).1 both).1

/-- The members that the check collects from some conditions, if from each of them it collects those
of its ANDs. -/
theorem memberConjuncts_eq_ok_iff {members conditions : List Condition}
    (each : ∀ member ∈ members, ∀ {conditions : List Condition},
      member.conjuncts = .ok conditions ↔
        conditions = member.andMembers ∧ ∀ other ∈ member.andMembers, other.isTest = true) :
    memberConjuncts members = .ok conditions ↔
      conditions = andMembersAll members ∧
        ∀ member ∈ andMembersAll members, member.isTest = true := by
  induction members generalizing conditions with
  | nil =>
    constructor
    · rintro ⟨⟩
      exact ⟨rfl, List.forall_mem_nil _⟩
    · rintro ⟨rfl, -⟩
      rfl
  | cons member members ih =>
    rw [List.forall_mem_cons] at each
    rw [memberConjuncts, bind_eq_ok_iff, andMembersAll, List.forall_mem_append]
    constructor
    · rintro ⟨first, ofMember, collected⟩
      obtain ⟨rest, ofMembers, same⟩ := bind_eq_ok_iff.1 collected
      cases same
      obtain ⟨rfl, test⟩ := each.1.1 ofMember
      obtain ⟨rfl, tests⟩ := (ih each.2).1 ofMembers
      exact ⟨rfl, test, tests⟩
    · rintro ⟨rfl, test, tests⟩
      have ofMember := each.1.2 ⟨rfl, test⟩
      have ofMembers := (ih each.2).2 ⟨rfl, tests⟩
      exact ⟨_, ofMember, bind_eq_ok_iff.2 ⟨_, ofMembers, rfl⟩⟩

/-- The members that the check collects are those of the ANDs. -/
theorem conjuncts_eq_ok_iff {condition : Condition} {conditions : List Condition} :
    condition.conjuncts = .ok conditions ↔
      conditions = condition.andMembers ∧
        ∀ member ∈ condition.andMembers, member.isTest = true := by
  induction condition generalizing conditions with
  | test condition test =>
    rw [conjuncts_of_isTest test, andMembers_of_isTest test, Except.ok.injEq, eq_comm,
      List.forall_mem_singleton]
    exact (and_iff_left test).symm
  | not condition =>
    constructor
    · rintro ⟨⟩
    · rintro ⟨-, test⟩
      cases test _ (List.mem_singleton_self _)
  | group connective members ih =>
    cases connective with
    | or =>
      constructor
      · rintro ⟨⟩
      · rintro ⟨-, test⟩
        cases test _ (List.mem_singleton_self _)
    | and =>
      rw [conjuncts, andMembers]
      exact memberConjuncts_eq_ok_iff fun member mem => ih member mem

end Condition

/-! ### The check of a key condition -/

/-- Terms that are fit for a key pass the check. -/
theorem checkTerms_of_fit {key : List KeyAttribute} {seen : List String}
    {conditions : List Condition} {terms : List KeyTerm}
    (termed : List.Forall₂ Condition.IsKeyTerm conditions terms)
    (named : ∀ term ∈ terms, term.path ∈ key.map KeyAttribute.name)
    (equal : ∀ term ∈ terms, keyOfRole? .partition key = some term.path → term.equality = true)
    (once : (terms.map KeyTerm.path).Nodup) (fresh : ∀ term ∈ terms, term.path ∉ seen) :
    checkTerms key seen conditions = .ok ((terms.map KeyTerm.path).reverse ++ seen) := by
  induction termed generalizing seen with
  | nil => rfl
  | @cons condition term conditions terms first rest ih =>
    rw [List.forall_mem_cons] at named equal fresh
    obtain ⟨alone, once⟩ := List.nodup_cons.1 once
    have later : ∀ other ∈ terms, other.path ∉ term.path :: seen := by
      intro other mem
      rw [List.mem_cons, not_or]
      refine ⟨fun same => alone ?_, fresh.2 other mem⟩
      rw [← same]
      exact List.mem_map_of_mem mem
    have ranged : ¬(keyOfRole? .partition key = some term.path ∧ term.equality = false) := by
      rintro ⟨partition, range⟩
      rw [equal.1 partition] at range
      cases range
    rw [checkTerms, Condition.keyTerm_eq_ok_iff.2 first]
    show (if _ then _ else if _ then _ else if _ then _ else _) = _
    rw [if_neg (not_not.2 named.1), if_neg fresh.1, if_neg ranged,
      ih named.2 equal.2 once later, List.map_cons, List.reverse_cons, List.append_assoc]
    rfl

/-- **A key condition passes the check** exactly if the members of its ANDs are terms that are fit
for the key. -/
theorem checkKeyCondition_eq_ok_iff {condition : Condition} {key : List KeyAttribute} :
    checkKeyCondition condition key = .ok () ↔
      ∃ terms, List.Forall₂ Condition.IsKeyTerm condition.andMembers terms ∧
        FitForKey key terms := by
  constructor
  · intro checked
    obtain ⟨conditions, terms, collected, termed, fit⟩ := checkKeyCondition_eq_ok checked
    obtain ⟨rfl, _⟩ := Condition.conjuncts_eq_ok_iff.1 collected
    exact ⟨terms, termed.imp fun _ _ => Condition.keyTerm_eq_ok_iff.1, fit⟩
  · rintro ⟨terms, termed, fit⟩
    have tests := Condition.isTest_of_forall₂_isKeyTerm termed
    have equal : ∀ term ∈ terms, keyOfRole? .partition key = some term.path →
        term.equality = true := by
      intro term mem partition
      have equality := fit.partition term.path partition
      -- No other term is on the partition key.
      rw [List.inj_on_of_nodup_map fit.once mem equality rfl]
    have checked := checkTerms_of_fit termed fit.named equal fit.once fun term _ => List.not_mem_nil
    refine bind_eq_ok_iff.2 ⟨_, Condition.conjuncts_eq_ok_iff.2 ⟨rfl, tests⟩, ?_⟩
    refine bind_eq_ok_iff.2 ⟨_, checked, ?_⟩
    cases partition : keyOfRole? .partition key with
    | none => rfl
    | some name =>
      have constrained : name ∈ terms.map KeyTerm.path :=
        List.mem_map.2 ⟨_, fit.partition name partition, rfl⟩
      exact if_pos (by simpa using constrained)

/-! ### The target -/

/-- Whether an index is the **first of a name** among some indexes. -/
def SecondaryIndex.IsFirst (name : String) (indexes : List SecondaryIndex)
    (index : SecondaryIndex) : Prop :=
  ∃ before after, indexes = before ++ index :: after ∧ index.name = name ∧
    ∀ other ∈ before, other.name ≠ name

namespace TableSchema

/-- Whether a key is that of the **target** of a query: that of the table, or that of the first
index of the given name, global indexes before local ones. -/
inductive IsTarget (schema : TableSchema) : Option String → List KeyAttribute → Prop where
  /-- The table. -/
  | table : IsTarget schema none schema.key
  /-- A global index. -/
  | globalIndex {name : String} {index : SecondaryIndex}
    (first : index.IsFirst name schema.globalIndexes) : IsTarget schema (some name) index.key
  /-- A local index of a name that no global index has. -/
  | localIndex {name : String} {index : SecondaryIndex}
    (alone : ∀ other ∈ schema.globalIndexes, other.name ≠ name)
    (first : index.IsFirst name schema.localIndexes) : IsTarget schema (some name) index.key

end TableSchema

/-- An index is the first of a name exactly if the look-up finds it. -/
theorem SecondaryIndex.find?_eq_some_iff_isFirst {name : String} {indexes : List SecondaryIndex}
    {index : SecondaryIndex} :
    (indexes.find? fun index => decide (index.name = name)) = some index ↔
      index.IsFirst name indexes := by
  rw [List.find?_eq_some_iff_append, IsFirst]
  constructor
  · rintro ⟨named, before, after, same, others⟩
    refine ⟨before, after, same, of_decide_eq_true named, fun other mem => ?_⟩
    simpa using others other mem
  · rintro ⟨before, after, same, named, others⟩
    refine ⟨decide_eq_true named, before, after, same, fun other mem => ?_⟩
    simpa using others other mem

/-- The index of a name is the first global one, or else the first local one. -/
theorem TableSchema.findIndex?_eq_some_iff {schema : TableSchema} {name : String}
    {kind : IndexKind} {index : SecondaryIndex} :
    schema.findIndex? name = some (kind, index) ↔
      (kind = .globalIndex ∧ index.IsFirst name schema.globalIndexes) ∨
        (kind = .localIndex ∧ (∀ other ∈ schema.globalIndexes, other.name ≠ name) ∧
          index.IsFirst name schema.localIndexes) := by
  simp only [findIndex?, Option.or_eq_some_iff, Option.map_eq_some_iff, Option.map_eq_none_iff,
    SecondaryIndex.find?_eq_some_iff_isFirst, List.find?_eq_none, decide_eq_true_eq,
    Prod.mk.injEq]
  constructor
  · rintro (⟨_, first, rfl, rfl⟩ | ⟨alone, _, first, rfl, rfl⟩)
    · exact .inl ⟨rfl, first⟩
    · exact .inr ⟨rfl, alone, first⟩
  · rintro (⟨rfl, first⟩ | ⟨rfl, alone, first⟩)
    · exact .inl ⟨index, first, rfl, rfl⟩
    · exact .inr ⟨alone, index, first, rfl, rfl⟩

/-- **The key of a target** is what is looked up for it. -/
theorem TableSchema.keyOf_eq_ok_iff {schema : TableSchema} {index : Option String}
    {key : List KeyAttribute} : schema.keyOf index = .ok key ↔ schema.IsTarget index key := by
  cases index with
  | none =>
    constructor
    · rintro ⟨⟩
      exact .table
    · rintro ⟨⟩
      rfl
  | some name =>
    have looked : schema.keyOf (some name) = .ok key ↔
        ∃ kind index, schema.findIndex? name = some (kind, index) ∧ index.key = key := by
      rw [keyOf, map_eq_ok_iff, TableSchema.index]
      cases schema.findIndex? name with
      | none => simp
      | some found => simp [Prod.ext_iff]
    rw [looked]
    constructor
    · rintro ⟨kind, index, found, rfl⟩
      rcases findIndex?_eq_some_iff.1 found with ⟨_, first⟩ | ⟨_, alone, first⟩
      · exact .globalIndex first
      · exact .localIndex alone first
    · intro target
      cases target with
      | globalIndex first => exact ⟨_, _, findIndex?_eq_some_iff.2 (.inl ⟨rfl, first⟩), rfl⟩
      | localIndex alone first =>
        exact ⟨_, _, findIndex?_eq_some_iff.2 (.inr ⟨rfl, alone, first⟩), rfl⟩

end ItemExpr
