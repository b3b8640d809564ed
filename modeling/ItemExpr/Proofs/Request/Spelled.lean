import ItemExpr.Proofs.Request.Written

/-! # What requests spell

The text of a condition in compiled clauses spells what the condition says by the table of all
clauses, although clauses behind it have gone on with that table
(`Clauses.spelledBy_of_compile`). So whoever reads the text back by the maps of the request finds
what the normal form of the condition says (`Clauses.readBack_of_compile`). -/

namespace ItemExpr

open Compile

/-- The formula that a text with placeholders **stands for**, by the maps of a request. -/
def Formula.readBack (names : Entries String) (values : Entries AttributeValue) (text : String) :
    Option (Formula AttributeValue) :=
  (Formula.parse text).bind fun parsed => parsed.resolve (names.find? ·) (values.find? ·)

/-! ### Spelling by a table -/

namespace Condition

/-- Whether a text **spells** a condition by a table: it is the text of what the normal form of the
condition says, in placeholders that the table has for all that it mentions. -/
def SpelledBy (condition : Condition) (text : String) (table : Placeholders) : Prop :=
  ∃ said, condition.normal.read table.settings = .ok said ∧
    text = (said.spell table.spell).text ∧ table.Covers said.mentions

/-- What a condition is compiled to spells it. -/
theorem spelledBy_of_compileClause {clause : Clause} {condition : Condition}
    {table after : Placeholders} {text : String}
    (compiled : (condition.compileClause clause).runOn table = (.ok text, after)) :
    condition.SpelledBy text after := by
  rw [runOn_compileClause] at compiled
  obtain ⟨phrase, means, rfl, rfl⟩ := clauseOutcome_eq_ok compiled
  obtain ⟨said, reads, rfl⟩ := map_eq_ok_iff.1 means
  refine ⟨said, ?_, rfl, Placeholders.covers_registerAll _ _⟩
  rw [Phrase.settings_after]
  exact reads

/-- What spells a condition spells it later. -/
theorem SpelledBy.registerAll {condition : Condition} {text : String} {table : Placeholders}
    (spelled : condition.SpelledBy text table) (later : List Registration) :
    condition.SpelledBy text (table.registerAll later) := by
  obtain ⟨said, reads, same, covers⟩ := spelled
  refine ⟨said, ?_, ?_, covers.registerAll later⟩
  · rw [Placeholders.settings_registerAll]
    exact reads
  · rw [same, Formula.spell_congr (covers.spell_registerAll later)]

/-- What spells a condition is read back as what its normal form says. -/
theorem SpelledBy.readBack {condition : Condition} {text : String} {table : Placeholders}
    (spelled : condition.SpelledBy text table) (consistent : table.Consistent)
    (stem : Settings.isStem table.settings.stem = true) :
    ∃ said resolved, condition.normal.read table.settings = .ok said ∧
      Formula.readBack table.nameMap table.valueMap text = some resolved ∧
      (resolved == said) = true := by
  obtain ⟨said, reads, rfl, covers⟩ := spelled
  obtain ⟨parses, resolved, resolves, equal⟩ :=
    Formula.parse_spell consistent stem (flat_of_read_normal reads) covers
  refine ⟨said, resolved, reads, ?_, equal⟩
  rw [Formula.readBack, parses]
  exact resolves

end Condition

/-! ### Tables of clauses -/

/-- Whether a compilation that succeeds only **registers** in the table at hand. -/
def Compile.Registers {α : Type} (compile : Compile α) : Prop :=
  ∀ {table after : Placeholders} {result : α}, compile.runOn table = (.ok result, after) →
    ∃ registrations, after = table.registerAll registrations

/-- What comes out as the outcome of a clause only registers. -/
theorem Compile.registers_of_clauseOutcome {α : Type} {compile : Compile String} {clause : Clause}
    {layOut : α → String} {meaning : Placeholders → Except CompileError (Phrase α)}
    (runs : ∀ table, compile.runOn table = clauseOutcome clause layOut table (meaning table)) :
    compile.Registers := by
  intro table after text compiled
  rw [runs] at compiled
  obtain ⟨phrase, _, _, rfl⟩ := clauseOutcome_eq_ok compiled
  exact ⟨phrase.registrations, rfl⟩

theorem Condition.registers_compileClause (clause : Clause) (condition : Condition) :
    (condition.compileClause clause).Registers :=
  registers_of_clauseOutcome (condition.runOn_compileClause clause)

theorem Update.registers_compile (update : Update) : update.compile.Registers :=
  registers_of_clauseOutcome update.runOn_compile

theorem Projection.registers_compile (texts : List String) :
    (Projection.compile texts).Registers :=
  registers_of_clauseOutcome (Projection.runOn_compile texts)

namespace Clauses

/-- A clause that may be absent is compiled if it is there, and only registers. -/
theorem compileOptional_eq_ok {α : Type} {compile : α → Compile String} {clause : Option α}
    {table after : Placeholders} {text : Option String} (registers : ∀ a, (compile a).Registers)
    (ran : (compileOptional compile clause).runOn table = (.ok text, after)) :
    (∃ registrations, after = table.registerAll registrations) ∧
      ∀ a, clause = some a →
        ∃ written, text = some written ∧ (compile a).runOn table = (.ok written, after) := by
  rcases runOn_compileOptional_eq_ok.1 ran with
    ⟨rfl, rfl, rfl⟩ | ⟨clause, written, rfl, rfl, compiled⟩
  · refine ⟨⟨[], rfl⟩, ?_⟩
    rintro a ⟨⟩
  · refine ⟨registers clause compiled, ?_⟩
    rintro a ⟨⟩
    exact ⟨written, rfl, compiled⟩

/-- The condition of a clause, if there is one. -/
def conditionOf? (clauses : Clauses) : Clause → Option Condition
  | .keyCondition => clauses.keyCondition
  | .filter => clauses.filter
  | .condition => clauses.condition
  | .update | .projection => none

/-- The table of compiled clauses is one that registrations lead to, and the text of every condition
among the clauses spells it by that table. -/
theorem spelledBy_of_compile {clauses : Clauses} {compiled : CompiledClauses}
    (ran : clauses.compile = .ok compiled) :
    (∃ registrations, compiled.placeholders =
        (Placeholders.empty clauses.settings).registerAll registrations) ∧
      ∀ clause condition, clauses.conditionOf? clause = some condition →
        ∃ text, compiled.text clause = some text ∧
          condition.SpelledBy text compiled.placeholders := by
  obtain ⟨_, _, _, _, key, filtered, conditioned, updated, projected⟩ := compile_eq_ok ran
  -- Every clause goes on with the table of the one before it.
  obtain ⟨⟨ofKey, rfl⟩, key⟩ := compileOptional_eq_ok
    (Condition.registers_compileClause .keyCondition) key
  obtain ⟨⟨ofFilter, rfl⟩, filtered⟩ := compileOptional_eq_ok
    (Condition.registers_compileClause .filter) filtered
  obtain ⟨⟨ofCondition, rfl⟩, conditioned⟩ := compileOptional_eq_ok
    (Condition.registers_compileClause .condition) conditioned
  obtain ⟨⟨ofUpdate, rfl⟩, _⟩ := compileOptional_eq_ok Update.registers_compile updated
  obtain ⟨⟨ofProjection, same⟩, _⟩ :=
    compileOptional_eq_ok Projection.registers_compile projected
  rw [same]
  constructor
  · simp only [← Placeholders.registerAll_append]
    exact ⟨_, rfl⟩
  · intro clause condition' set
    cases clause with
    | keyCondition =>
      obtain ⟨text, has, compiled⟩ := key condition' set
      exact ⟨text, has, ((((Condition.spelledBy_of_compileClause compiled).registerAll
        ofFilter).registerAll ofCondition).registerAll ofUpdate).registerAll ofProjection⟩
    | filter =>
      obtain ⟨text, has, compiled⟩ := filtered condition' set
      exact ⟨text, has, (((Condition.spelledBy_of_compileClause compiled).registerAll
        ofCondition).registerAll ofUpdate).registerAll ofProjection⟩
    | condition =>
      obtain ⟨text, has, compiled⟩ := conditioned condition' set
      exact ⟨text, has, ((Condition.spelledBy_of_compileClause compiled).registerAll
        ofUpdate).registerAll ofProjection⟩
    | update | projection => cases set

/-- **The text of a compiled condition is read back by the maps of the table** as what the normal
form of the condition says. -/
theorem readBack_of_compile {clauses : Clauses} {compiled : CompiledClauses}
    (stem : Settings.isStem clauses.settings.stem = true) (ran : clauses.compile = .ok compiled)
    {clause : Clause} {condition : Condition}
    (set : clauses.conditionOf? clause = some condition) :
    ∃ text said resolved, compiled.text clause = some text ∧
      condition.normal.read clauses.settings = .ok said ∧
      Formula.readBack compiled.placeholders.nameMap compiled.placeholders.valueMap text =
        some resolved ∧
      (resolved == said) = true := by
  obtain ⟨⟨registrations, table⟩, spelled⟩ := spelledBy_of_compile ran
  obtain ⟨text, has, spelled⟩ := spelled clause condition set
  have settings : compiled.placeholders.settings = clauses.settings := by
    rw [table, Placeholders.settings_registerAll, Placeholders.settings_empty]
  have consistent : compiled.placeholders.Consistent :=
    table ▸ (Placeholders.consistent_empty _).registerAll registrations
  obtain ⟨said, resolved, reads, found, equal⟩ :=
    spelled.readBack consistent (settings ▸ stem)
  exact ⟨text, said, resolved, has, settings ▸ reads, found, equal⟩

/-! ### Queries -/

/-- A query that is not refused has been checked against the key of its target, and it carries the
compiled clauses. -/
theorem applyToQuery_eq_ok {clauses : Clauses} {request result : QueryRequest}
    {schema : TableSchema} {index : Option String}
    (applied : clauses.applyToQuery request schema index = .ok result) :
    ∃ key compiled, schema.keyOf index = .ok key ∧ clauses.checkKeys schema key = .ok () ∧
      clauses.checkFilters key = .ok () ∧ clauses.compile = .ok compiled ∧
      result.keyCondition = compiled.keyCondition ∧ result.filter = compiled.filter ∧
      result.names = compiled.placeholders.nameMap ∧
      result.values = compiled.placeholders.valueMap := by
  obtain ⟨_, _, applied⟩ := bind_eq_ok_iff.1 applied
  obtain ⟨key, target, applied⟩ := bind_eq_ok_iff.1 applied
  obtain ⟨_, keys, applied⟩ := bind_eq_ok_iff.1 applied
  obtain ⟨_, filters, applied⟩ := bind_eq_ok_iff.1 applied
  obtain ⟨compiled, compiles, same⟩ := bind_eq_ok_iff.1 applied
  cases same
  exact ⟨key, compiled, target, keys, filters, compiles, rfl, rfl, rfl, rfl⟩

end Clauses

end ItemExpr
