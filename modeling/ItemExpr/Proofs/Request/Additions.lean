import ItemExpr.Proofs.Condition.Joined
import ItemExpr.Proofs.Request.Spelled

/-! # Adding conditions

Conditions that are added to a clause are joined by AND. `joins_agree_with_groups` says that joined
conditions compile as the group of both would, on every table, and that each of them then compiles
as well, up to one thing: a condition may be too long alone and fit behind another one, because what
they share is written with the shorter placeholders that the other one came upon first.

A group without members is the exception. It is refused as a member of a group, but a condition that
is joined to an empty group of the same connective takes its place (`joins_not_as_groups`). -/

namespace ItemExpr

open Compile

namespace Clauses

/-! ### Clauses that are conditions -/

/-- Add a condition to a clause; an update and a projection take none. -/
def add (clause : Clause) (clauses : Clauses) (condition : Condition) : Clauses :=
  match clause with
  | .keyCondition => clauses.addKeyCondition condition
  | .filter => clauses.addFilter condition
  | .condition => clauses.addCondition condition
  | .update | .projection => clauses

/-- Whether a clause is a condition. -/
def takesConditions : Clause → Bool
  | .keyCondition | .filter | .condition => true
  | .update | .projection => false

variable {clause : Clause} {clauses : Clauses}

/-- An addition joins what is there. -/
theorem conditionOf?_add (takes : takesConditions clause = true) (condition : Condition) :
    (clauses.add clause condition).conditionOf? clause =
      some (conjoin (clauses.conditionOf? clause) condition) := by
  cases clause with
  | keyCondition | filter | condition => rfl
  | update | projection => cases takes

@[simp] theorem settings_add (condition : Condition) :
    (clauses.add clause condition).settings = clauses.settings := by
  cases clause <;> rfl

@[simp] theorem settings_foldl_add (conditions : List Condition) :
    (conditions.foldl (add clause) clauses).settings = clauses.settings := by
  induction conditions generalizing clauses with
  | nil => rfl
  | cons condition conditions ih => rw [List.foldl_cons, ih, settings_add]

/-- Additions are joined one after the other. -/
theorem conditionOf?_foldl_add (takes : takesConditions clause = true) {first : Condition}
    (set : clauses.conditionOf? clause = some first) (rest : List Condition) :
    (rest.foldl (add clause) clauses).conditionOf? clause =
      some (rest.foldl (Condition.join .and) first) := by
  induction rest generalizing clauses first with
  | nil => exact set
  | cons next rest ih =>
    refine ih ?_
    rw [conditionOf?_add takes, set]
    rfl

/-! ### A condition on its own -/

/-- Whether clauses **compile but for the length** of one of them: they compile, or nothing is
against them but that the text of this clause is too long. -/
def CompileButForLength (clauses : Clauses) (clause : Clause) : Prop :=
  (∃ compiled, clauses.compile = .ok compiled) ∨
    ∃ length, clauses.settings.maxBytes < length ∧
      clauses.compile = .error (.tooLong clause length clauses.settings.maxBytes)

/-- A condition that is the only clause comes out as it does on a new table. -/
theorem compileButForLength_add {settings : Settings} {condition : Condition}
    (takes : takesConditions clause = true)
    (compiles : condition.CompilesButForLength clause (Placeholders.empty settings)) :
    (add clause { settings } condition).CompileButForLength clause := by
  cases clause with
  | update | projection => cases takes
  | keyCondition | filter | condition =>
    -- The clauses before it and behind it leave the table as it is.
    simp only [CompileButForLength, add, addKeyCondition, addFilter, addCondition, conjoin, compile,
      compileOn, compileOptional, List.isEmpty_nil, runOn_bind, runOn_pure, runOn_get, if_pos]
    rcases compiles with ⟨text, after, ran⟩ | ⟨length, long, ran⟩
    · rw [ran]
      exact Or.inl ⟨_, rfl⟩
    · rw [ran]
      exact Or.inr ⟨length, long, rfl⟩

/-- If clauses with additions compile, so does each addition on its own, but for its length. -/
theorem compileButForLength_of_compile {compiled : CompiledClauses} {first : Condition}
    {rest : List Condition} (takes : takesConditions clause = true)
    (unset : clauses.conditionOf? clause = none) (members : first ≠ .group .and [])
    (ran : ((first :: rest).foldl (add clause) clauses).compile = .ok compiled) :
    ∀ condition ∈ first :: rest,
      (add clause { settings := clauses.settings } condition).CompileButForLength clause := by
  have set : ((first :: rest).foldl (add clause) clauses).conditionOf? clause =
      some (rest.foldl (Condition.join .and) first) := by
    refine conditionOf?_foldl_add takes ?_ rest
    rw [conditionOf?_add takes, unset]
    rfl
  obtain ⟨⟨registrations, table⟩, spelled⟩ := spelledBy_of_compile ran
  obtain ⟨text, _, said, reads, _, _⟩ := spelled clause _ set
  rw [table, Placeholders.settings_registerAll, Placeholders.settings_empty,
    settings_foldl_add] at reads
  intro condition mem
  obtain ⟨each, readsEach⟩ := Condition.read_of_read_foldl_join members reads condition mem
  exact compileButForLength_add takes (Condition.compilesButForLength_of_read readsEach clause)

/-! ### Joining and grouping -/

/-- **Joined conditions compile as the group of both**, on every table and with the same text or
refusal, unless the first one is a group of the connective that has no members. If they compile, so
does the first one, and the second one on the table after it; on the table at hand the second one
compiles but for its length. And if clauses compile with one condition or more added to a clause, so
do those with any one of these conditions alone, but for its length. -/
theorem joins_agree_with_groups {connective : Connective} {left right : Condition}
    (members : left ≠ .group connective []) (clause : Clause) :
    (∀ table, ((Condition.join connective left right).compileClause clause).runOn table =
      ((Condition.group connective [left, right]).compileClause clause).runOn table) ∧
    (∀ table text after,
      ((Condition.join connective left right).compileClause clause).runOn table =
        (.ok text, after) →
      (∃ between first second, (left.compileClause clause).runOn table = (.ok first, between) ∧
        (right.compileClause clause).runOn between = (.ok second, after)) ∧
      right.CompilesButForLength clause table) ∧
    (connective = .and → takesConditions clause = true →
      ∀ clauses more compiled, clauses.conditionOf? clause = none →
        ((left :: more).foldl (add clause) clauses).compile = .ok compiled →
        ∀ condition ∈ left :: more,
          (add clause { settings := clauses.settings } condition).CompileButForLength clause) := by
  have same := fun table => congrArg (Compile.runOn · table)
    (Condition.compileClause_congr (@Condition.normal_join _ _ right members) clause)
  refine ⟨same, ?_, ?_⟩
  · intro table text after compiled
    rw [same] at compiled
    obtain ⟨between, first, second, ofLeft, ofRight⟩ := Condition.compileClause_pair compiled
    refine ⟨⟨between, first, second, ofLeft, ofRight⟩, ?_⟩
    -- What can be read on the table between can be read on any table of its settings.
    obtain ⟨registrations, rfl⟩ := left.registers_compileClause clause ofLeft
    obtain ⟨said, reads⟩ := Condition.exists_read_of_compileClause ofRight
    rw [Placeholders.settings_registerAll] at reads
    exact Condition.compilesButForLength_of_read reads clause
  · rintro rfl takes clauses more compiled unset ran
    exact compileButForLength_of_compile takes unset members ran

/-- Behind a group of one member, a group of the other connective stands in parentheses. The same
conditions make a filter one after the other. -/
theorem joins_agree_with_groups_filter :
    (((Condition.join .and (.group .and [.exists "a" false])
        (.group .or [.exists "b" true, .exists "a" false])).compileClause .filter).runOn
          (Placeholders.empty {})).1 =
      .ok "attribute_exists(#a) AND (attribute_not_exists(#b) OR attribute_exists(#a))" ∧
    (((Condition.group .and [.group .and [.exists "a" false],
        .group .or [.exists "b" true, .exists "a" false]]).compileClause .filter).runOn
          (Placeholders.empty {})).1 =
      .ok "attribute_exists(#a) AND (attribute_not_exists(#b) OR attribute_exists(#a))" ∧
    (Condition.group .or [.exists "b" true, .exists "a" false]).CompilesButForLength .filter
      (Placeholders.empty {}) ∧
    (add .filter {} (.group .or [.exists "b" true, .exists "a" false])).CompileButForLength
      .filter := by
  obtain ⟨same, parts, alone⟩ := @joins_agree_with_groups .and
    (.group .and [.exists "a" false]) (.group .or [.exists "b" true, .exists "a" false]) nofun
    .filter
  have text : (((Condition.join .and (.group .and [.exists "a" false])
      (.group .or [.exists "b" true, .exists "a" false])).compileClause .filter).runOn
        (Placeholders.empty {})).1 =
      .ok "attribute_exists(#a) AND (attribute_not_exists(#b) OR attribute_exists(#a))" := by
    decide +kernel
  obtain ⟨compiled, compiles, _⟩ : ∃ compiled : CompiledClauses,
      (([.group .and [.exists "a" false], .group .or [.exists "b" true, .exists "a" false]] :
        List Condition).foldl (add .filter) {}).compile = .ok compiled ∧
      compiled.filter =
        some "attribute_exists(#a) AND (attribute_not_exists(#b) OR attribute_exists(#a))" :=
    exists_ok_of_toOption (by decide +kernel)
  refine ⟨text, ?_, (parts _ _ _ (Prod.ext text rfl)).2, ?_⟩
  · rw [← same]
    exact text
  · exact alone rfl rfl {} [_] compiled rfl compiles _ (List.mem_cons_of_mem _ List.mem_cons_self)

/-- A condition that is joined to a group of no members compiles, whereas the group of both is
refused. And a condition of 182 bytes is refused for its length, but compiles behind another one
that has its most frequent literal take the shortest placeholder. -/
theorem joins_not_as_groups :
    (((Condition.join .and (.group .and []) (.exists "x" false)).compileClause .condition).runOn
        (Placeholders.empty {})).1 = .ok "attribute_exists(#x)" ∧
    (((Condition.group .and [.group .and [], .exists "x" false]).compileClause .condition).runOn
        (Placeholders.empty {})).1 = .error .emptyGroup ∧
    (((Condition.join .and (.compare (.path "x") .eq (.value (.number "10")))
      (.group .and
        [.among (.path "x") (["1", "2", "3", "4", "5", "6", "7", "8", "9"].map
          fun text => .value (.number text)),
        .among (.path "x") (List.replicate 20 (.value (.number "10")))])).compileClause
          .condition).runOn (Placeholders.empty { maxBytes := 180 })).1 =
      .ok ("#x = :v1 AND #x IN (:v2, :v3, :v4, :v5, :v6, :v7, :v8, :v9, :v10) AND #x IN (:v1, " ++
        ":v1, :v1, :v1, :v1, :v1, :v1, :v1, :v1, :v1, :v1, :v1, :v1, :v1, :v1, :v1, :v1, :v1, " ++
        ":v1, :v1)") ∧
    (((Condition.group .and
        [.among (.path "x") (["1", "2", "3", "4", "5", "6", "7", "8", "9"].map
          fun text => .value (.number text)),
        .among (.path "x") (List.replicate 20 (.value (.number "10")))]).compileClause
          .condition).runOn (Placeholders.empty { maxBytes := 180 })).1 =
      .error (.tooLong .condition 182 180) := by
  decide +kernel

end Clauses

end ItemExpr
