import ItemExpr.Proofs.Condition.Faithful
import ItemExpr.Proofs.Projection.Tokens
import ItemExpr.Proofs.Update.Tokens
import ItemExpr.Request.Clauses

/-! # What compiled clauses write

Every clause compiler writes the placeholders of all that it registers, and no others
(`Compile.WritesAll`). So whichever clauses a request has, the placeholders in their texts are those
of the table (`Clauses.written_of_compile`). The induction is along the clauses: each of them leaves
the texts before it and their placeholders as they are. -/

namespace ItemExpr

open Compile

/-! ### What a table holds -/

namespace Placeholders

variable {settings : Settings} {registrations : List Registration} {placeholder : String}

/-- The names by placeholder are those that were registered. -/
theorem mem_keys_nameMap :
    placeholder ∈ ((empty settings).registerAll registrations).nameMap.keys ↔
      .name placeholder ∈
        registrations.map (Mention.spell ((empty settings).registerAll registrations).spell) := by
  have consistent := (consistent_empty settings).registerAll registrations
  rw [List.mem_map, nameMap, ← Entries.isSome_find?, Option.isSome_iff_exists]
  constructor
  · rintro ⟨name, found⟩
    have mem := consistent.name?_iff.1 found
    have registered : .name name ∈ registrations := (mem_names_registerAll mem).resolve_left nofun
    refine ⟨.name name, registered, ?_⟩
    have given : ((empty settings).registerAll registrations).placeholder? (.name name) =
        some placeholder := consistent.ofName?_iff_mem.2 mem
    rw [Mention.spell, spell, given, Option.getD_some]
  · rintro ⟨registration, mem, spelled⟩
    obtain ⟨given, found⟩ := covers_registerAll (empty settings) registrations registration mem
    cases registration with
    | value value => cases spelled
    | name name =>
      rw [Mention.spell, spell, found, Option.getD_some] at spelled
      cases spelled
      exact ⟨name, consistent.ofName?_iff_name?.1 found⟩

/-- The values by placeholder are those that were registered. -/
theorem mem_keys_valueMap :
    placeholder ∈ ((empty settings).registerAll registrations).valueMap.keys ↔
      .value placeholder ∈
        registrations.map (Mention.spell ((empty settings).registerAll registrations).spell) := by
  have consistent := (consistent_empty settings).registerAll registrations
  rw [List.mem_map, valueMap, ← Entries.isSome_find?, Option.isSome_iff_exists]
  constructor
  · rintro ⟨value, found⟩
    have mem := consistent.value?_iff.1 found
    have registered : .value value ∈ registrations :=
      (mem_values_registerAll mem).resolve_left nofun
    refine ⟨.value value, registered, ?_⟩
    have given : ((empty settings).registerAll registrations).placeholder? (.value value) =
        some placeholder := consistent.ofValue?_iff_mem.2 ⟨value, mem, BEq.rfl⟩
    rw [Mention.spell, spell, given, Option.getD_some]
  · rintro ⟨registration, mem, spelled⟩
    obtain ⟨given, found⟩ := covers_registerAll (empty settings) registrations registration mem
    cases registration with
    | name name => cases spelled
    | value value =>
      rw [Mention.spell, spell, found, Option.getD_some] at spelled
      cases spelled
      obtain ⟨known, found, _⟩ := consistent.ofValue?_iff_value?.1 found
      exact ⟨known, found⟩

end Placeholders

/-! ### What a clause writes -/

/-- Whether a clause that compiles on a fit table writes the placeholders of all that it registers,
and no others. -/
def Compile.WritesAll (compile : Compile String) : Prop :=
  ∀ {table after : Placeholders} {text : String}, table.Consistent →
    Settings.isStem table.settings.stem = true → compile.runOn table = (.ok text, after) →
    ∃ registrations, after = table.registerAll registrations ∧
      Shows text (registrations.map (Mention.spell after.spell))

/-- What a table covers is spelled legibly after its registration. -/
theorem Placeholders.Consistent.legible_registerAll {table : Placeholders}
    (consistent : table.Consistent) (stem : Settings.isStem table.settings.stem = true)
    (registrations : List Registration) :
    ∀ mention ∈ registrations.map (Mention.spell (table.registerAll registrations).spell),
      mention.Legible := by
  refine (consistent.registerAll registrations).legible ?_ (table.covers_registerAll registrations)
  rw [settings_registerAll]
  exact stem

/-- A condition writes all that it registers. -/
theorem Condition.writesAll_compileClause (clause : Clause) (condition : Condition) :
    (condition.compileClause clause).WritesAll := by
  intro table after text consistent stem compiled
  rw [runOn_compileClause] at compiled
  obtain ⟨phrase, means, rfl, rfl⟩ := clauseOutcome_eq_ok compiled
  obtain ⟨said, reads, rfl⟩ := map_eq_ok_iff.1 means
  refine ⟨said.mentions, rfl, ?_⟩
  rw [← Formula.mentions_spell]
  refine Formula.shows_text ?_
  rw [Formula.mentions_spell]
  exact consistent.legible_registerAll stem said.mentions

/-- An update writes all that it registers. -/
theorem Update.writesAll_compile (update : Update) : update.compile.WritesAll := by
  intro table after text consistent stem compiled
  rw [runOn_compile] at compiled
  obtain ⟨phrase, means, rfl, rfl⟩ := clauseOutcome_eq_ok compiled
  obtain ⟨changes, reads, rfl⟩ := map_eq_ok_iff.1 means
  refine ⟨changes.flatMap Change.mentions, rfl, ?_⟩
  have shown := @shows_partsText (changes.map (Change.spell
    (table.registerAll (changes.flatMap Change.mentions)).spell)) (by
      rw [Change.flatMap_mentions_map_spell]
      exact consistent.legible_registerAll stem _)
  rw [Change.flatMap_mentions_map_spell, List.map_map] at shown
  simp only [Function.comp_def, Change.part_spell] at shown
  exact shown

/-- A projection shows the names of its paths. -/
theorem Projection.shows_of_compile {texts : List String} {table after : Placeholders}
    {text : String} (consistent : table.Consistent)
    (stem : Settings.isStem table.settings.stem = true)
    (compiled : (Projection.compile texts).runOn table = (.ok text, after)) :
    ∃ paths : List Path, after = table.registerAll (paths.flatMap Path.mentions) ∧
      Shows text ((paths.flatMap Path.mentions).map (Mention.spell after.spell)) := by
  rw [runOn_compile] at compiled
  obtain ⟨phrase, means, rfl, rfl⟩ := clauseOutcome_eq_ok compiled
  obtain ⟨paths, reads, rfl⟩ := map_eq_ok_iff.1 means
  refine ⟨paths, rfl, ?_⟩
  have shown := @shows_text (paths.map (Path.spell
    (table.registerAll (paths.flatMap Path.mentions)).spell)) (by
      rw [Path.flatMap_mentions_map_spell]
      exact consistent.legible_registerAll stem _)
  rw [Path.flatMap_mentions_map_spell, List.map_map] at shown
  exact shown

/-- A projection writes all that it registers. -/
theorem Projection.writesAll_compile (texts : List String) :
    (Projection.compile texts).WritesAll := by
  intro table after text consistent stem compiled
  obtain ⟨paths, same, shown⟩ := Projection.shows_of_compile consistent stem compiled
  exact ⟨_, same, shown⟩

/-- Whether a text is what a compilation yields on a table that is fit for it. -/
def Compile.Yields (compile : Compile String) (text : String) : Prop :=
  ∃ table after, Placeholders.Consistent table ∧ Settings.isStem table.settings.stem = true ∧
    compile.runOn table = (.ok text, after)

/-- A projection has no placeholders of values. -/
theorem Projection.not_mem_markedWords {texts : List String} {text placeholder : String}
    (yields : (Projection.compile texts).Yields text) :
    placeholder ∉ markedWords ':' text.toList := by
  obtain ⟨table, after, consistent, stem, compiled⟩ := yields
  obtain ⟨paths, rfl, shown⟩ := Projection.shows_of_compile consistent stem compiled
  -- Every mention of a path is a name.
  intro marked
  obtain ⟨registration, mem, spelled⟩ :=
    List.mem_map.1 ((shown.mem_markedWords (.value placeholder)).1 marked)
  obtain ⟨path, _, named⟩ := List.mem_flatMap.1 mem
  obtain ⟨name, _, rfl⟩ := List.mem_map.1 named
  cases spelled

/-! ### What all clauses write -/

/-- The text of a compiled clause. -/
def CompiledClauses.text (compiled : CompiledClauses) : Clause → Option String
  | .keyCondition => compiled.keyCondition
  | .filter => compiled.filter
  | .condition => compiled.condition
  | .update => compiled.update
  | .projection => compiled.projection

/-- The texts of compiled clauses, in the order in which they were compiled. -/
def CompiledClauses.texts (compiled : CompiledClauses) : List (Option String) :=
  [.keyCondition, .filter, .condition, .update, .projection].map compiled.text

/-- The text of every clause is among the texts. -/
theorem CompiledClauses.text_mem_texts (compiled : CompiledClauses) (clause : Clause) :
    compiled.text clause ∈ compiled.texts := by
  refine List.mem_map_of_mem ?_
  cases clause <;> decide

namespace Clauses

/-- A clause is present if it is set. -/
theorem mem_present {clauses : Clauses} {clause : Clause} :
    clause ∈ clauses.present ↔ match clause with
      | .keyCondition => clauses.keyCondition.isSome = true
      | .filter => clauses.filter.isSome = true
      | .condition => clauses.condition.isSome = true
      | .update => clauses.update.isSome = true
      | .projection => clauses.projection ≠ [] := by
  cases clause <;> simp [present]

/-- A clause that may be absent compiles to nothing, or to its text if it is there. -/
theorem runOn_compileOptional_eq_ok {α : Type} {compile : α → Compile String} {clause : Option α}
    {table after : Placeholders} {text : Option String} :
    (compileOptional compile clause).runOn table = (.ok text, after) ↔
      (clause = none ∧ text = none ∧ after = table) ∨
        ∃ a written, clause = some a ∧ text = some written ∧
          (compile a).runOn table = (.ok written, after) := by
  cases clause with
  | none =>
    rw [compileOptional, runOn_pure]
    constructor
    · rintro ⟨⟩
      exact .inl ⟨rfl, rfl, rfl⟩
    · rintro (⟨_, rfl, rfl⟩ | ⟨_, _, ⟨⟩, _⟩)
      rfl
  | some a =>
    rw [compileOptional, runOn_bind_eq_ok]
    constructor
    · rintro ⟨written, between, ran, ⟨⟩⟩
      exact .inr ⟨a, written, rfl, rfl, ran⟩
    · rintro (⟨⟨⟩, _⟩ | ⟨_, written, ⟨⟩, rfl, ran⟩)
      exact ⟨written, after, ran, rfl⟩

/-- Clauses that compile do so one after the other, each on the table of the one before it. -/
theorem compile_eq_ok {clauses : Clauses} {compiled : CompiledClauses}
    (ran : clauses.compile = .ok compiled) :
    ∃ first second third fourth,
      (compileOptional (Condition.compileClause .keyCondition) clauses.keyCondition).runOn
        (Placeholders.empty clauses.settings) = (.ok compiled.keyCondition, first) ∧
      (compileOptional (Condition.compileClause .filter) clauses.filter).runOn first =
        (.ok compiled.filter, second) ∧
      (compileOptional (Condition.compileClause .condition) clauses.condition).runOn second =
        (.ok compiled.condition, third) ∧
      (compileOptional Update.compile clauses.update).runOn third =
        (.ok compiled.update, fourth) ∧
      (compileOptional Projection.compile
        (if clauses.projection.isEmpty then none else some clauses.projection)).runOn fourth =
        (.ok compiled.projection, compiled.placeholders) := by
  obtain ⟨after, whole⟩ : ∃ after, clauses.compileOn.runOn
      (Placeholders.empty clauses.settings) = (.ok compiled, after) :=
    ⟨_, Prod.ext ran rfl⟩
  obtain ⟨keyCondition, first, ofKey, whole⟩ := runOn_bind_eq_ok.1 whole
  obtain ⟨filter, second, ofFilter, whole⟩ := runOn_bind_eq_ok.1 whole
  obtain ⟨condition, third, ofCondition, whole⟩ := runOn_bind_eq_ok.1 whole
  obtain ⟨update, fourth, ofUpdate, whole⟩ := runOn_bind_eq_ok.1 whole
  obtain ⟨projection, last, ofProjection, whole⟩ := runOn_bind_eq_ok.1 whole
  cases whole
  exact ⟨first, second, third, fourth, ofKey, ofFilter, ofCondition, ofUpdate, ofProjection⟩

/-- Clauses that run one after the other, each on the table of the one before it, compile. -/
theorem compile_of_runs {clauses : Clauses} {compiled : CompiledClauses}
    {first second third fourth : Placeholders}
    (key : (compileOptional (Condition.compileClause .keyCondition) clauses.keyCondition).runOn
      (Placeholders.empty clauses.settings) = (.ok compiled.keyCondition, first))
    (filtered : (compileOptional (Condition.compileClause .filter) clauses.filter).runOn first =
      (.ok compiled.filter, second))
    (conditioned : (compileOptional (Condition.compileClause .condition)
      clauses.condition).runOn second = (.ok compiled.condition, third))
    (updated : (compileOptional Update.compile clauses.update).runOn third =
      (.ok compiled.update, fourth))
    (projected : (compileOptional Projection.compile
      (if clauses.projection.isEmpty then none else some clauses.projection)).runOn fourth =
        (.ok compiled.projection, compiled.placeholders)) :
    clauses.compile = .ok compiled := by
  rw [compile, compileOn, runOn_bind_ok key, runOn_bind_ok filtered, runOn_bind_ok conditioned,
    runOn_bind_ok updated, runOn_bind_ok projected, runOn_bind_ok (runOn_get _), runOn_pure]

/-- Whether a table has registered what some texts mention, and nothing else. -/
def Written (settings : Settings) (texts : List (Option String)) (table : Placeholders) : Prop :=
  ∃ registrations, table = (Placeholders.empty settings).registerAll registrations ∧
    ∀ mention : Mention String,
      (∃ text, some text ∈ texts ∧ mention.text ∈ markedWords mention.mark text.toList) ↔
        mention ∈ registrations.map (Mention.spell table.spell)

theorem written_empty (settings : Settings) :
    Written settings [] (Placeholders.empty settings) :=
  ⟨[], rfl, by simp⟩

/-- One clause more writes what it registers, and leaves the placeholders of the texts before it. -/
theorem Written.compileOptional {settings : Settings} {texts : List (Option String)}
    {table after : Placeholders} {α : Type} {compile : α → Compile String} {clause : Option α}
    {text : Option String} (written : Written settings texts table)
    (stem : Settings.isStem settings.stem = true) (writes : ∀ a, (compile a).WritesAll)
    (ran : (compileOptional compile clause).runOn table = (.ok text, after)) :
    Written settings (texts ++ [text]) after ∧
      ∀ yielded, text = some yielded → ∃ a, clause = some a ∧ (compile a).Yields yielded := by
  obtain ⟨registrations, rfl, shown⟩ := written
  rcases runOn_compileOptional_eq_ok.1 ran with
    ⟨rfl, rfl, rfl⟩ | ⟨clause, clauseText, rfl, rfl, compiled⟩
  · refine ⟨⟨registrations, rfl, fun mention => ?_⟩, nofun⟩
    rw [← shown mention]
    simp
  · have consistent := (Placeholders.consistent_empty settings).registerAll registrations
    have stem' : Settings.isStem
        ((Placeholders.empty settings).registerAll registrations).settings.stem = true := by
      rw [Placeholders.settings_registerAll]
      exact stem
    refine ⟨?_, ?_⟩
    · obtain ⟨more, rfl, shown'⟩ := writes clause consistent stem' compiled
      refine ⟨registrations ++ more, (Placeholders.registerAll_append _ _ _).symm, ?_⟩
      intro mention
      -- What stands in the texts before is spelled as it was.
      have kept := Mention.map_spell_congr
        ((Placeholders.covers_registerAll (Placeholders.empty settings)
          registrations).spell_registerAll more)
      rw [List.map_append, kept, List.mem_append, ← shown mention,
        ← shown'.mem_markedWords mention]
      simp only [List.mem_append, List.mem_singleton, Option.some.injEq, or_and_right, exists_or,
        exists_eq_left]
    · rintro yielded ⟨⟩
      exact ⟨clause, rfl, _, _, consistent, stem', compiled⟩

/-- The table of compiled clauses has registered what their texts mention, and nothing else. Only a
clause that is present has a text, and in that of a projection there are no values. -/
theorem written_of_compile {clauses : Clauses} {compiled : CompiledClauses}
    (stem : Settings.isStem clauses.settings.stem = true)
    (ran : clauses.compile = .ok compiled) :
    Written clauses.settings compiled.texts compiled.placeholders ∧
      (∀ clause text, compiled.text clause = some text → clause ∈ clauses.present) ∧
      ∀ text, compiled.text .projection = some text →
        ∀ placeholder, placeholder ∉ markedWords ':' text.toList := by
  obtain ⟨_, _, _, _, key, filtered, conditioned, updated, projected⟩ := compile_eq_ok ran
  -- One step for each clause, in the order in which they are compiled.
  obtain ⟨written, ofKey⟩ := (written_empty clauses.settings).compileOptional stem
    (Condition.writesAll_compileClause .keyCondition) key
  obtain ⟨written, ofFilter⟩ := written.compileOptional stem
    (Condition.writesAll_compileClause .filter) filtered
  obtain ⟨written, ofCondition⟩ := written.compileOptional stem
    (Condition.writesAll_compileClause .condition) conditioned
  obtain ⟨written, ofUpdate⟩ := written.compileOptional stem Update.writesAll_compile updated
  obtain ⟨written, ofProjection⟩ := written.compileOptional stem
    Projection.writesAll_compile projected
  refine ⟨written, ?_, ?_⟩
  · intro clause text has
    rw [mem_present]
    cases clause with
    | keyCondition =>
      obtain ⟨condition, set, _⟩ := ofKey text has
      exact Option.isSome_of_eq_some set
    | filter =>
      obtain ⟨condition, set, _⟩ := ofFilter text has
      exact Option.isSome_of_eq_some set
    | condition =>
      obtain ⟨condition, set, _⟩ := ofCondition text has
      exact Option.isSome_of_eq_some set
    | update =>
      obtain ⟨update, set, _⟩ := ofUpdate text has
      exact Option.isSome_of_eq_some set
    | projection =>
      obtain ⟨paths, set, _⟩ := ofProjection text has
      rintro absent
      rw [absent] at set
      cases set
  · intro text has placeholder
    obtain ⟨paths, _, yields⟩ := ofProjection text has
    exact Projection.not_mem_markedWords yields

end Clauses

end ItemExpr
