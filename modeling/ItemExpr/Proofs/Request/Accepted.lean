import ItemExpr.Proofs.Request.Applied
import ItemExpr.Proofs.Request.Filter
import ItemExpr.Proofs.Request.KeyGrammar

/-! # Which queries are accepted

A query is accepted exactly if the grammar of key conditions, the target, the filter and the
compilers allow it (`Clauses.IsQuery`), and what is sent is the key condition's terms in their order
with AND between them (`Clauses.applyToQuery_accepts_exactly`). The check and the compiler go
through the ANDs of a condition each on its own: the check collects the members as they were
written, the compiler writes a normal form. That both find the same members comes from what the
conditions say. -/

namespace ItemExpr

open Compile

/-! ### Texts of ANDs -/

namespace Formula

variable {ν : Type}

/-- The members of an AND are mentioned in it. -/
theorem mem_mentions_of_mem_conjuncts {formula member : Formula ν}
    (mem : member ∈ formula.conjuncts) {mention : Mention ν} (within : mention ∈ member.mentions) :
    mention ∈ formula.mentions := by
  cases formula with
  | group connective members =>
    cases connective with
    | and =>
      rw [mentions, memberMentions_eq_flatMap]
      exact List.mem_flatMap.2 ⟨member, mem, within⟩
    | or =>
      rw [List.mem_singleton.1 mem] at within
      exact within
  | test | not =>
    rw [List.mem_singleton.1 mem] at within
    exact within

/-- The members of a spelled AND are its members, spelled. -/
theorem conjuncts_spell (f : Registration → String) (formula : Formula AttributeValue) :
    (formula.spell f).conjuncts = formula.conjuncts.map (spell f) := by
  cases formula with
  | group connective members =>
    cases connective with
    | and => exact spellMembers_eq_map f members
    | or => rfl
  | test | not => rfl

/-- The text of an AND of formulas that are no groups is the **texts of its members with `AND`
between them**. -/
theorem text_eq_intercalate_conjuncts {formula : Formula String}
    (tests : ∀ member ∈ formula.conjuncts, member.isGroup = false) :
    formula.text = " AND ".intercalate (formula.conjuncts.map text) := by
  cases formula with
  | group connective members =>
    cases connective with
    | and =>
      have texts : memberTexts members = members.map text := by
        rw [memberTexts_eq_map]
        refine List.map_congr_left fun member mem => ?_
        rw [textAsMember, tests member mem]
        rfl
      rw [text, texts]
      rfl
    | or => cases tests _ (List.mem_singleton_self _)
  | test | not => rfl

/-- Equal members are equal one by one. -/
theorem forall₂_of_sameMembers {members others : List (Formula AttributeValue)}
    (same : sameMembers members others = true) :
    List.Forall₂ (fun member other => (member == other) = true) members others := by
  induction members generalizing others with
  | nil =>
    cases others with
    | nil => exact .nil
    | cons => cases same
  | cons member members ih =>
    cases others with
    | nil => cases same
    | cons other others =>
      obtain ⟨first, rest⟩ := Bool.and_eq_true_iff.1 same
      exact .cons first (ih rest)

end Formula

namespace Condition

variable {table : Placeholders}

/-- Conditions that can be read say formulas one for one. -/
theorem forall₂_of_readMembers {settings : Settings} {conditions : List Condition}
    {formulas : List (Formula AttributeValue)}
    (reads : readMembers settings conditions = .ok formulas) :
    List.Forall₂ (fun condition formula => condition.read settings = .ok formula)
      conditions formulas := by
  induction conditions generalizing formulas with
  | nil =>
    cases reads
    exact .nil
  | cons condition conditions ih =>
    obtain ⟨formula, others, first, rest, rfl⟩ := readMembers_cons_iff.1 reads
    exact .cons first (ih rest)

/-- Tests say no groups. -/
theorem isGroup_of_forall₂_read {settings : Settings} {conditions : List Condition}
    {formulas : List (Formula AttributeValue)}
    (each : List.Forall₂ (fun condition formula => condition.read settings = .ok formula)
      conditions formulas)
    (tests : ∀ condition ∈ conditions, condition.isTest = true) :
    ∀ formula ∈ formulas, formula.isGroup = false := by
  induction each with
  | nil => nofun
  | cons first _ ih =>
    rw [List.forall_mem_cons] at tests ⊢
    obtain ⟨leaf, rfl⟩ := eq_test_of_read tests.1 first
    exact ⟨rfl, ih tests.2⟩

/-- Tests that say formulas are spelled by the texts of these, if the table has what they
mention. -/
theorem forall₂_spelledBy {conditions : List Condition} {formulas : List (Formula AttributeValue)}
    (each : List.Forall₂ (fun condition formula => condition.read table.settings = .ok formula)
      conditions formulas)
    (tests : ∀ condition ∈ conditions, condition.isTest = true)
    (covers : ∀ formula ∈ formulas, table.Covers formula.mentions) :
    List.Forall₂ (fun condition text => condition.SpelledBy text table) conditions
      (formulas.map fun formula => (formula.spell table.spell).text) := by
  induction each with
  | nil => exact .nil
  | cons first _ ih =>
    rw [List.forall_mem_cons] at tests covers
    refine .cons ⟨_, ?_, rfl, covers.1⟩ (ih tests.2 covers.2)
    rw [normal_of_isTest tests.1]
    exact first

/-- A text that spells an AND of tests is made of **texts that spell the tests, in their order**,
with `AND` between them. -/
theorem SpelledBy.andMembers {condition : Condition} {text : String}
    (spelled : condition.SpelledBy text table)
    (tests : ∀ member ∈ condition.andMembers, member.isTest = true) :
    ∃ texts, text = " AND ".intercalate texts ∧
      List.Forall₂ (fun member text => member.SpelledBy text table) condition.andMembers texts := by
  obtain ⟨said, reads, rfl, covers⟩ := spelled
  have collected := conjuncts_eq_ok_iff.2 ⟨rfl, tests⟩
  have each := forall₂_of_readMembers (readMembers_conjuncts collected reads)
  refine ⟨said.conjuncts.map fun member => (member.spell table.spell).text, ?_, ?_⟩
  · have tests' := isGroup_of_forall₂_read each tests
    rw [Formula.text_eq_intercalate_conjuncts, Formula.conjuncts_spell, List.map_map]
    · rfl
    · rw [Formula.conjuncts_spell, List.forall_mem_map]
      intro member mem
      rw [Formula.isGroup_spell]
      exact tests' member mem
  · refine forall₂_spelledBy each tests fun member mem mention within => ?_
    exact covers mention (Formula.mem_mentions_of_mem_conjuncts mem within)

/-- Two lists that each agree one by one with a third agree with each other through its members. -/
theorem forall₂_of_common {α β γ : Type} {agrees : α → γ → Prop} {agrees' : β → γ → Prop}
    {as : List α} {bs : List β} {cs : List γ} (first : List.Forall₂ agrees as cs)
    (second : List.Forall₂ agrees' bs cs) :
    List.Forall₂ (fun a b => ∃ c, agrees a c ∧ agrees' b c) as bs := by
  induction first generalizing bs with
  | nil =>
    cases second
    exact .nil
  | cons head _ ih =>
    cases second with
    | cons head' rest => exact .cons ⟨_, head, head'⟩ (ih rest)

/-- What spells an AND of tests is **read back as these tests, in their order**, up to equality of
literals. -/
theorem SpelledBy.readBack_andMembers {condition : Condition} {text : String}
    (spelled : condition.SpelledBy text table) (consistent : table.Consistent)
    (stem : Settings.isStem table.settings.stem = true)
    (tests : ∀ member ∈ condition.andMembers, member.isTest = true) :
    ∃ resolved, Formula.readBack table.nameMap table.valueMap text = some resolved ∧
      List.Forall₂ (fun member found => ∃ said, member.read table.settings = .ok said ∧
        (found == said) = true) condition.andMembers resolved.conjuncts := by
  obtain ⟨said, resolved, reads, found, equal⟩ := spelled.readBack consistent stem
  have collected := conjuncts_eq_ok_iff.2 ⟨rfl, tests⟩
  have each := forall₂_of_readMembers (readMembers_conjuncts collected reads)
  have same := Formula.forall₂_of_sameMembers (Formula.sameMembers_conjuncts_of_same equal)
  exact ⟨resolved, found, forall₂_of_common each same⟩

end Condition

/-! ### Accepted queries -/

/-- Whether the key condition of a query **joins some conditions** by AND, in the placeholders of a
table: its text is made of texts that spell them, in their order, and whoever reads the text back by
the maps of the query finds what they say. -/
structure QueryRequest.Joins (request : QueryRequest) (conditions : List Condition)
    (table : Placeholders) : Prop where
  /-- The names are those of the table. -/
  names : request.names = table.nameMap
  /-- The literals are those of the table. -/
  values : request.values = table.valueMap
  /-- The texts of the conditions stand between ANDs. -/
  spelled : ∃ texts, request.keyCondition = some (" AND ".intercalate texts) ∧
    List.Forall₂ (fun condition text => condition.SpelledBy text table) conditions texts
  /-- What the conditions say stands between ANDs. -/
  readBack : Settings.isStem table.settings.stem = true →
    ∃ text resolved, request.keyCondition = some text ∧
      Formula.readBack request.names request.values text = some resolved ∧
      List.Forall₂ (fun condition found => ∃ said, condition.read table.settings = .ok said ∧
        (found == said) = true) conditions resolved.conjuncts

namespace Clauses

/-- Whether clauses are those of a **query** of a table or of its index of a name. -/
structure IsQuery (clauses : Clauses) (schema : TableSchema) (index : Option String) : Prop where
  /-- There is no condition on the item that is there. -/
  noCondition : clauses.condition = none
  /-- There is no update. -/
  noUpdate : clauses.update = none
  /-- The target has a key, the members of the ANDs of the key condition are terms that are fit for
  it, and no path of the filter begins with one of its attributes. -/
  keyed : ∃ key condition terms, schema.IsTarget index key ∧
    clauses.keyCondition = some condition ∧
    List.Forall₂ Condition.IsKeyTerm condition.andMembers terms ∧ FitForKey key terms ∧
    ∀ filter, clauses.filter = some filter →
      ∀ path ∈ filter.paths, Path.rootText path ∉ key.map KeyAttribute.name
  /-- The clauses compile. -/
  compiles : ∃ compiled, clauses.compile = .ok compiled

/-- A query carries all clauses but a condition and an update. -/
theorem checkSupported_query_eq_ok_iff {clauses : Clauses} :
    clauses.checkSupported .query = .ok () ↔ clauses.condition = none ∧ clauses.update = none := by
  rw [checkSupported_eq_ok_iff]
  constructor
  · intro carried
    have absent : ∀ clause, clause ∉ Operation.query.clauses → clause ∉ clauses.present :=
      fun clause refused set => refused (carried clause set)
    have noCondition := absent .condition (by decide)
    have noUpdate := absent .update (by decide)
    rw [mem_present] at noCondition noUpdate
    simpa using And.intro noCondition noUpdate
  · rintro ⟨noCondition, noUpdate⟩ clause set
    rw [mem_present] at set
    cases clause with
    | condition => simp [noCondition] at set
    | update => simp [noUpdate] at set
    | keyCondition | filter | projection => decide

/-- The check of the key condition passes exactly if there is one and its members are terms that are
fit for the key. -/
theorem checkKeys_eq_ok_iff {clauses : Clauses} {schema : TableSchema} {key : List KeyAttribute} :
    clauses.checkKeys schema key = .ok () ↔
      ∃ condition terms, clauses.keyCondition = some condition ∧
        List.Forall₂ Condition.IsKeyTerm condition.andMembers terms ∧ FitForKey key terms := by
  rw [checkKeys]
  cases clauses.keyCondition with
  | none =>
    constructor
    · rintro ⟨⟩
    · rintro ⟨_, _, ⟨⟩, _⟩
  | some condition =>
    rw [checkKeyCondition_eq_ok_iff]
    constructor
    · rintro ⟨terms, termed, fit⟩
      exact ⟨condition, terms, rfl, termed, fit⟩
    · rintro ⟨_, terms, ⟨⟩, termed, fit⟩
      exact ⟨terms, termed, fit⟩

/-- The check of the filter passes exactly if no path of it begins with a key attribute. -/
theorem checkFilters_eq_ok_iff {clauses : Clauses} {key : List KeyAttribute} :
    clauses.checkFilters key = .ok () ↔
      ∀ filter, clauses.filter = some filter →
        ∀ path ∈ filter.paths, Path.rootText path ∉ key.map KeyAttribute.name := by
  rw [checkFilters]
  cases clauses.filter with
  | none =>
    refine iff_of_true rfl ?_
    rintro _ ⟨⟩
  | some filter =>
    rw [checkFilter_eq_ok_iff, List.forall_mem_map]
    constructor
    · rintro avoids _ ⟨⟩
      exact avoids
    · exact fun avoids => avoids filter rfl

/-- The clauses of a query pass all checks on the key of its target. -/
theorem isQuery_iff {clauses : Clauses} {schema : TableSchema} {index : Option String} :
    clauses.IsQuery schema index ↔
      clauses.checkSupported .query = .ok () ∧
        (∃ key, schema.keyOf index = .ok key ∧ clauses.checkKeys schema key = .ok () ∧
          clauses.checkFilters key = .ok ()) ∧
        ∃ compiled, clauses.compile = .ok compiled := by
  constructor
  · rintro ⟨noCondition, noUpdate, ⟨key, condition, terms, target, set, termed, fit, avoids⟩,
      compiles⟩
    refine ⟨checkSupported_query_eq_ok_iff.2 ⟨noCondition, noUpdate⟩, ⟨key, ?_, ?_, ?_⟩, compiles⟩
    · exact TableSchema.keyOf_eq_ok_iff.2 target
    · exact checkKeys_eq_ok_iff.2 ⟨condition, terms, set, termed, fit⟩
    · exact checkFilters_eq_ok_iff.2 avoids
  · rintro ⟨supported, ⟨key, target, keys, filters⟩, compiles⟩
    obtain ⟨noCondition, noUpdate⟩ := checkSupported_query_eq_ok_iff.1 supported
    obtain ⟨condition, terms, set, termed, fit⟩ := checkKeys_eq_ok_iff.1 keys
    exact ⟨noCondition, noUpdate, ⟨key, condition, terms, TableSchema.keyOf_eq_ok_iff.1 target, set,
      termed, fit, checkFilters_eq_ok_iff.1 filters⟩, compiles⟩

/-- **Queries are accepted exactly as documented**, and what is sent as the key condition of an
accepted query joins the terms of its key condition in their order. -/
theorem applyToQuery_accepts_exactly (clauses : Clauses) (request : QueryRequest)
    (schema : TableSchema) (index : Option String) :
    ((∃ result, clauses.applyToQuery request schema index = .ok result) ↔
      clauses.IsQuery schema index) ∧
    ∀ result, clauses.applyToQuery request schema index = .ok result →
      ∃ condition compiled, clauses.keyCondition = some condition ∧
        clauses.compile = .ok compiled ∧
        result.Joins condition.andMembers compiled.placeholders := by
  constructor
  · rw [isQuery_iff]
    constructor
    · rintro ⟨result, applied⟩
      obtain ⟨_, supported, applied⟩ := bind_eq_ok_iff.1 applied
      obtain ⟨key, target, applied⟩ := bind_eq_ok_iff.1 applied
      obtain ⟨_, keys, applied⟩ := bind_eq_ok_iff.1 applied
      obtain ⟨_, filters, applied⟩ := bind_eq_ok_iff.1 applied
      obtain ⟨compiled, compiles, _⟩ := bind_eq_ok_iff.1 applied
      exact ⟨supported, ⟨key, target, keys, filters⟩, compiled, compiles⟩
    · rintro ⟨supported, ⟨key, target, keys, filters⟩, compiled, compiles⟩
      exact ⟨_, bind_eq_ok_iff.2 ⟨(), supported, bind_eq_ok_iff.2 ⟨key, target,
        bind_eq_ok_iff.2 ⟨(), keys, bind_eq_ok_iff.2 ⟨(), filters,
          bind_eq_ok_iff.2 ⟨compiled, compiles, rfl⟩⟩⟩⟩⟩⟩
  · intro result applied
    obtain ⟨key, compiled, _, keys, _, compiles, carried, _, names, values⟩ :=
      applyToQuery_eq_ok applied
    obtain ⟨condition, terms, set, termed, _⟩ := checkKeys_eq_ok_iff.1 keys
    have tests := Condition.isTest_of_forall₂_isKeyTerm termed
    have keyCondition? : clauses.conditionOf? .keyCondition = some condition := set
    obtain ⟨⟨registrations, table⟩, spelled⟩ := spelledBy_of_compile compiles
    obtain ⟨text, has, spelled⟩ := spelled .keyCondition condition keyCondition?
    have consistent : compiled.placeholders.Consistent :=
      table ▸ (Placeholders.consistent_empty _).registerAll registrations
    refine ⟨condition, compiled, set, compiles, names, values, ?_, fun stem => ?_⟩
    · obtain ⟨texts, same, each⟩ := spelled.andMembers tests
      exact ⟨texts, carried.trans (has.trans (congrArg some same)), each⟩
    · obtain ⟨resolved, found, each⟩ := spelled.readBack_andMembers consistent stem tests
      refine ⟨text, resolved, carried.trans has, ?_, each⟩
      rw [names, values]
      exact found

/-- A global and a local index of one name: the terms are on the key of the global one. A query of
the table with the same clauses is refused. -/
theorem applyToQuery_accepts_exactly_shared_name :
    ∃ (clauses : Clauses) (schema : TableSchema) (result : QueryRequest),
      clauses.keyCondition = some (.group .and
        [.beginsWith "street" (.value (.string "A")),
          .group .and [.compare (.path "city") .eq (.value (.boolean true))]]) ∧
      schema = { name := "people", key := [⟨"id", .partition⟩]
                 globalIndexes := [⟨"by", [⟨"city", .partition⟩, ⟨"street", .sort⟩], {}⟩]
                 localIndexes := [⟨"by", [⟨"id", .partition⟩, ⟨"age", .sort⟩], {}⟩] } ∧
      clauses.applyToQuery {} schema (some "by") = .ok result ∧
      result.keyCondition = some "begins_with(#street, :v1) AND #city = :v2" ∧
      clauses.IsQuery schema (some "by") ∧ ¬clauses.IsQuery schema none ∧
      ∃ condition compiled, clauses.keyCondition = some condition ∧
        clauses.compile = .ok compiled ∧
        result.Joins condition.andMembers compiled.placeholders := by
  let clauses : Clauses := { keyCondition := some (.group .and
    [.beginsWith "street" (.value (.string "A")),
      .group .and [.compare (.path "city") .eq (.value (.boolean true))]]) }
  let schema : TableSchema := {
    name := "people", key := [⟨"id", .partition⟩]
    globalIndexes := [⟨"by", [⟨"city", .partition⟩, ⟨"street", .sort⟩], {}⟩]
    localIndexes := [⟨"by", [⟨"id", .partition⟩, ⟨"age", .sort⟩], {}⟩] }
  have yields : (clauses.applyToQuery {} schema (some "by")).toOption.map
      QueryRequest.keyCondition = some (some "begins_with(#street, :v1) AND #city = :v2") := by
    decide +kernel
  have refused : (clauses.applyToQuery {} schema none).toOption.isNone = true := by
    decide +kernel
  obtain ⟨result, applied, shown⟩ := exists_ok_of_toOption yields
  have accepts := applyToQuery_accepts_exactly clauses {} schema (some "by")
  refine ⟨clauses, schema, result, rfl, rfl, applied, shown, accepts.1.1 ⟨result, applied⟩,
    ?_, accepts.2 result applied⟩
  intro isQuery
  obtain ⟨other, accepted⟩ := (applyToQuery_accepts_exactly clauses {} schema none).1.2 isQuery
  rw [accepted] at refused
  cases refused

end Clauses

end ItemExpr
