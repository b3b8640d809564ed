import ItemExpr.Proofs.Formula.Candidates
import ItemExpr.Proofs.Projection.Tokens
import ItemExpr.Proofs.Request.Spelled

/-! # Limits

The settings limit the length of a text and the number of candidates of a membership test. What is
refused for a limit may pass under looser ones, but a limit is never looked at for anything else:
clauses that compile do so under all looser settings (`Settings.Loosens`), to the same texts and the
same table, and every text keeps to the limits that it was compiled under
(`Clauses.compile_within_limits`).

The candidates of a membership test are counted in the text. A text that is made of placeholders
with a fit stem is taken apart into its tokens, and behind every IN among them there has to be a
list in parentheses (`Token.ListsWithin`). -/

namespace ItemExpr

open Compile

/-- Whether settings are **loosened** by others: value placeholders begin in the same way, and
neither limit is smaller. -/
structure Settings.Loosens (settings looser : Settings) : Prop where
  /-- Value placeholders begin in the same way. -/
  stem : looser.stem = settings.stem
  /-- Texts may be as long or longer. -/
  maxBytes : settings.maxBytes ≤ looser.maxBytes
  /-- Membership tests may have as many candidates or more. -/
  maxCandidates : settings.maxCandidates ≤ looser.maxCandidates

/-! ### Tables under other settings -/

namespace Placeholders

/-- A table **under** other settings. -/
def under (table : Placeholders) (settings : Settings) : Placeholders := { table with settings }

variable {looser : Settings} (table : Placeholders)

/-- What a table spells does not depend on its settings. -/
@[simp] theorem spell_under : (table.under looser).spell = table.spell := by
  funext registration
  cases registration <;> rfl

/-- A registration depends on the stem only. -/
theorem register_under (stem : looser.stem = table.settings.stem) (registration : Registration) :
    (table.under looser).register registration = (table.register registration).under looser := by
  cases registration with
  | name name =>
    -- A name gets its placeholder without a look at the settings.
    have known : (table.under looser).ofName? name = table.ofName? name := rfl
    rw [register, register, give, give, addName, addName, known]
    cases table.ofName? name with
    | some placeholder => rfl
    | none =>
      by_cases plain : isPlainName name ∧ readable name ∉ table.taken
      · rw [if_pos plain]
        exact congrArg Prod.snd (if_pos plain)
      · rw [if_neg plain]
        exact congrArg Prod.snd (if_neg plain)
  | value value =>
    -- Of the settings only the stem goes into the placeholder of a value.
    have known : (table.under looser).ofValue? value = table.ofValue? value := rfl
    have given : (table.under looser).valuePlaceholder (table.valueCounter + 1) =
        table.valuePlaceholder (table.valueCounter + 1) :=
      congrArg (· ++ Number.natText (table.valueCounter + 1)) stem
    rw [register, register, give, give, addValue, addValue, known]
    cases table.ofValue? value with
    | some placeholder => rfl
    | none =>
      exact congrArg (fun placeholder : String =>
        ({ (table.bindValue value placeholder).under looser with
          valueCounter := table.valueCounter + 1 } : Placeholders)) given

/-- What is registered in a table depends on the stem only. -/
theorem registerAll_under (stem : looser.stem = table.settings.stem)
    (registrations : List Registration) :
    (table.under looser).registerAll registrations =
      (table.registerAll registrations).under looser := by
  induction registrations generalizing table with
  | nil => rfl
  | cons registration registrations ih =>
    rw [registerAll_cons, registerAll_cons, table.register_under stem registration]
    refine ih (table.register registration) ?_
    rw [settings_register]
    exact stem

end Placeholders

/-! ### Reading under looser settings -/

namespace Condition

variable {settings looser : Settings}

/-- A membership test says the same under looser settings. -/
theorem readAmong_of_loosens (loosens : settings.Loosens looser) {operand : Operand}
    {candidates : List Operand} {test : Test AttributeValue}
    (reads : readAmong settings operand candidates = .ok test) :
    readAmong looser operand candidates = .ok test := by
  cases candidates with
  | nil => cases reads
  | cons first others =>
    rw [readAmong] at reads ⊢
    split at reads
    · cases reads
    · next few =>
      rw [if_neg (Nat.not_lt.2 (Nat.le_trans (Nat.not_lt.1 few) loosens.maxCandidates))]
      exact reads

/-- Members say the same under looser settings, if each of them does. -/
theorem readMembers_of_loosens {members : List Condition}
    {formulas : List (Formula AttributeValue)}
    (each : ∀ member ∈ members, ∀ said, member.read settings = .ok said →
      member.read looser = .ok said)
    (reads : readMembers settings members = .ok formulas) :
    readMembers looser members = .ok formulas := by
  induction members generalizing formulas with
  | nil => exact reads
  | cons member members ih =>
    rw [List.forall_mem_cons] at each
    obtain ⟨said, others, first, rest, rfl⟩ := readMembers_cons_iff.1 reads
    exact readMembers_cons_iff.2 ⟨said, others, each.1 said first, ih each.2 rest, rfl⟩

/-- **A condition says the same under looser settings.** -/
theorem read_of_loosens (loosens : settings.Loosens looser) {condition : Condition}
    {said : Formula AttributeValue} (reads : condition.read settings = .ok said) :
    condition.read looser = .ok said := by
  induction condition generalizing said with
  | test condition test =>
    cases condition with
    | among operand candidates =>
      rw [read] at reads ⊢
      obtain ⟨leaf, among, ⟨⟩⟩ := bind_eq_ok_iff.1 reads
      rw [readAmong_of_loosens loosens among]
      rfl
    | group | not => cases test
    | _ =>
      -- No other test looks at the settings.
      rw [read] at reads ⊢
      exact reads
  | group connective members ih =>
    obtain ⟨nonempty, formulas, reads', rfl⟩ := read_group_iff.1 reads
    exact read_group_iff.2
      ⟨nonempty, formulas, readMembers_of_loosens (fun member mem _ => ih member mem) reads', rfl⟩
  | not condition ih =>
    rw [read] at reads ⊢
    obtain ⟨inner, reads', ⟨⟩⟩ := bind_eq_ok_iff.1 reads
    rw [ih reads']
    rfl

end Condition

/-! ### Texts within limits -/

/-- There is no IN in a source. -/
theorem Source.among_notMem_tokens (source : Source String) : Token.among ∉ source.tokens := by
  cases source with
  | value placeholder => simp [tokens]
  | reference path fallback =>
    cases fallback with
    | none => exact path.among_notMem_tokens
    | some fallback =>
      refine Function.among_notMem_tokens .ifNotExists ?_
      simpa using path.among_notMem_tokens

/-- There is no IN in a change. -/
theorem Change.among_notMem_tokens (change : Change String) : Token.among ∉ change.tokens := by
  cases change with
  | remove target => exact target.among_notMem_tokens
  | change kind target source =>
    have left := target.among_notMem_tokens
    have right := source.among_notMem_tokens
    have call : ∀ {first second}, Token.among ∉ first → Token.among ∉ second →
        Token.among ∉ Function.listAppend.tokens [first, second] :=
      fun before behind => Function.among_notMem_tokens .listAppend (by simp [before, behind])
    cases kind <;> simp [tokens, left, right, call]

/-- There is no IN in the parts of an update. -/
theorem Update.among_notMem_partTokens (changes : List (Change String)) (part : UpdatePart) :
    Token.among ∉ partTokens changes part := by
  have none : Token.among ∉ [Token.comma].intercalate
      ((changes.filter fun change => change.part = part).map Change.tokens) :=
    among_notMem_intercalate (by simp) (List.forall_mem_map.2 fun change _ =>
      change.among_notMem_tokens)
  simp [partTokens, none]

/-- Whether a text is **within the limits** of settings: it is short enough, and if the placeholders
of values are legible in it, so are the lists that it is taken apart into. -/
structure Settings.Admits (settings : Settings) (text : String) : Prop where
  /-- The text is short enough. -/
  length : text.utf8ByteSize ≤ settings.maxBytes
  /-- There are not too many candidates behind any IN. -/
  lists : Settings.isStem settings.stem = true →
    ∃ tokens, lex text.toList = some tokens ∧ Token.ListsWithin settings.maxCandidates tokens

/-- Whether a table **serves** compilations under some settings. -/
def Placeholders.Serves (table : Placeholders) (settings : Settings) : Prop :=
  table.Consistent ∧ table.settings = settings

theorem Placeholders.serves_empty (settings : Settings) : (empty settings).Serves settings :=
  ⟨consistent_empty settings, rfl⟩

/-- Whether a compilation **keeps to the limits** of settings: on a table that serves it, what it
yields is within them, and under looser settings it yields the same and leaves the same table. -/
def Compile.KeepsLimits {α : Type} (settings : Settings) (within : α → Prop)
    (compile : Compile α) : Prop :=
  ∀ {table after : Placeholders} {result : α}, table.Serves settings →
    compile.runOn table = (.ok result, after) →
    after.Serves settings ∧ within result ∧ ∀ looser, settings.Loosens looser →
      compile.runOn (table.under looser) = (.ok result, after.under looser)

section KeepsLimits

variable {settings : Settings}

/-- A clause keeps to the limits if its meaning stays the same under looser settings, and if no list
in what it writes is too long. -/
theorem Compile.keepsLimits_of_clauseOutcome {α : Type} {compile : Compile String}
    {clause : Clause} {layOut : α → String} (meaning : Settings → Except CompileError (Phrase α))
    (runs : ∀ table,
      compile.runOn table = clauseOutcome clause layOut table (meaning table.settings))
    (same : ∀ {looser phrase}, settings.Loosens looser → meaning settings = .ok phrase →
      meaning looser = .ok phrase)
    (lists : ∀ {table phrase}, table.Serves settings → Settings.isStem settings.stem = true →
      meaning settings = .ok phrase → ∃ tokens, Lexes (layOut (phrase.written table)) tokens ∧
        Token.ListsWithin settings.maxCandidates tokens) :
    compile.KeepsLimits settings settings.Admits := by
  rintro table after text ⟨consistent, rfl⟩ ran
  rw [runs] at ran
  have fits := fits_of_clauseOutcome_eq_ok ran
  obtain ⟨phrase, means, rfl, rfl⟩ := clauseOutcome_eq_ok ran
  refine ⟨⟨consistent.registerAll _, phrase.settings_after table⟩, ⟨fits, fun stem => ?_⟩, ?_⟩
  · obtain ⟨tokens, lexes, within⟩ := lists ⟨consistent, rfl⟩ stem means
    exact ⟨tokens, lexes.lex_eq, within⟩
  · intro looser loosens
    -- The table is the same but for its settings, and so is what is written by it.
    have table' : phrase.after (table.under looser) = (phrase.after table).under looser :=
      table.registerAll_under loosens.stem phrase.registrations
    have written : phrase.written (table.under looser) = phrase.written table := by
      rw [Phrase.written, table', Placeholders.spell_under, Phrase.written]
    have fits' : (layOut (phrase.written (table.under looser))).utf8ByteSize ≤
        (table.under looser).settings.maxBytes := by
      rw [written]
      exact Nat.le_trans fits loosens.maxBytes
    have meaning' : meaning (table.under looser).settings = .ok phrase := same loosens means
    rw [runs, meaning', clauseOutcome_of_fits fits', table', written]

theorem Condition.keepsLimits_compileClause (clause : Clause) (condition : Condition) :
    (condition.compileClause clause).KeepsLimits settings settings.Admits := by
  refine Compile.keepsLimits_of_clauseOutcome
    (fun settings => (condition.normal.read settings).map Formula.phrase)
    (condition.runOn_compileClause clause) ?_ ?_
  · intro looser phrase loosens means
    obtain ⟨said, reads, rfl⟩ := map_eq_ok_iff.1 means
    rw [read_of_loosens loosens reads]
    rfl
  · rintro table phrase ⟨consistent, rfl⟩ stem means
    obtain ⟨said, reads, rfl⟩ := map_eq_ok_iff.1 means
    refine ⟨_, Formula.lexes_text ?_, Formula.listsWithin_tokens ?_⟩
    · rw [Formula.mentions_spell]
      exact consistent.legible_registerAll stem said.mentions
    · rw [Formula.tests_spell]
      refine List.forall_mem_map.2 fun leaf mem => Test.candidatesWithin_spell.2 ?_
      exact candidatesWithin_of_read reads leaf mem

theorem Update.keepsLimits_compile (update : Update) :
    update.compile.KeepsLimits settings settings.Admits := by
  refine Compile.keepsLimits_of_clauseOutcome (fun _ => update.read.map Change.phraseAll)
    update.runOn_compile (fun _ means => means) ?_
  rintro table phrase ⟨consistent, rfl⟩ stem means
  obtain ⟨changes, reads, rfl⟩ := map_eq_ok_iff.1 means
  have lexes := @lexes_partsText (changes.map (Change.spell
    (table.registerAll (changes.flatMap Change.mentions)).spell)) (by
      rw [Change.flatMap_mentions_map_spell]
      exact consistent.legible_registerAll stem _)
  rw [List.map_map] at lexes
  simp only [Function.comp_def, Change.part_spell] at lexes
  refine ⟨_, lexes, Token.listsWithin_of_notMem (among_notMem_intercalate (by simp) ?_)⟩
  exact List.forall_mem_map.2 fun part _ => among_notMem_partTokens _ part

theorem Projection.keepsLimits_compile (texts : List String) :
    (Projection.compile texts).KeepsLimits settings settings.Admits := by
  refine Compile.keepsLimits_of_clauseOutcome (fun _ => (read texts).map (phrase []))
    (runOn_compile texts) (fun _ means => means) ?_
  rintro table phrase ⟨consistent, rfl⟩ stem means
  obtain ⟨paths, reads, rfl⟩ := map_eq_ok_iff.1 means
  obtain ⟨kept, _, _, lexes⟩ := @lexes_text (paths.map (Path.spell
    (table.registerAll (paths.flatMap Path.mentions)).spell)) (by
      rw [Path.flatMap_mentions_map_spell]
      exact consistent.legible_registerAll stem _)
  rw [List.map_map] at lexes
  refine ⟨_, lexes, Token.listsWithin_of_notMem (among_notMem_intercalate (by simp) ?_)⟩
  exact List.forall_mem_map.2 fun path _ => path.among_notMem_tokens

end KeepsLimits

namespace Clauses

/-- A clause that may be absent keeps to the limits if it does when it is there. -/
theorem keepsLimits_compileOptional {α : Type} {settings : Settings} {compile : α → Compile String}
    (each : ∀ a, (compile a).KeepsLimits settings settings.Admits) (clause : Option α) :
    (compileOptional compile clause).KeepsLimits settings fun text =>
      ∀ written, text = some written → settings.Admits written := by
  intro table after text serves ran
  rcases runOn_compileOptional_eq_ok.1 ran with
    ⟨rfl, rfl, rfl⟩ | ⟨clause, written, rfl, rfl, compiled⟩
  · refine ⟨serves, ?_, fun _ _ => rfl⟩
    rintro _ ⟨⟩
  · obtain ⟨serves', admits, under⟩ := each clause serves compiled
    refine ⟨serves', ?_, fun looser loosens => ?_⟩
    · rintro _ ⟨⟩
      exact admits
    · exact runOn_compileOptional_eq_ok.2 (.inr ⟨clause, written, rfl, rfl, under looser loosens⟩)

/-- Clauses that compile are within the limits, and they compile to the same under looser
settings. -/
theorem admits_of_compile {clauses : Clauses} {compiled : CompiledClauses}
    (ran : clauses.compile = .ok compiled) :
    (∀ clause text, compiled.text clause = some text → clauses.settings.Admits text) ∧
    ∀ looser, clauses.settings.Loosens looser → { clauses with settings := looser }.compile =
      .ok { compiled with placeholders := compiled.placeholders.under looser } := by
  obtain ⟨_, _, _, _, key, filtered, conditioned, updated, projected⟩ := compile_eq_ok ran
  -- One step for each clause, on the table that the one before it leaves.
  obtain ⟨serves, ofKey, key⟩ := keepsLimits_compileOptional
    (Condition.keepsLimits_compileClause .keyCondition) _
    (Placeholders.serves_empty clauses.settings) key
  obtain ⟨serves, ofFilter, filtered⟩ := keepsLimits_compileOptional
    (Condition.keepsLimits_compileClause .filter) _ serves filtered
  obtain ⟨serves, ofCondition, conditioned⟩ := keepsLimits_compileOptional
    (Condition.keepsLimits_compileClause .condition) _ serves conditioned
  obtain ⟨serves, ofUpdate, updated⟩ := keepsLimits_compileOptional
    Update.keepsLimits_compile _ serves updated
  obtain ⟨_, ofProjection, projected⟩ := keepsLimits_compileOptional
    Projection.keepsLimits_compile _ serves projected
  constructor
  · intro clause
    cases clause with
    | keyCondition => exact ofKey
    | filter => exact ofFilter
    | condition => exact ofCondition
    | update => exact ofUpdate
    | projection => exact ofProjection
  · intro looser loosens
    exact compile_of_runs (key looser loosens) (filtered looser loosens)
      (conditioned looser loosens) (updated looser loosens) (projected looser loosens)

/-- **Limits only filter.** Clauses that compile do so under all looser settings, to the same texts
and the same maps. Every text is within the limits that it was compiled under, and whatever the
stem of value placeholders is, no membership test that a condition among the clauses says has too
many candidates. -/
theorem compile_within_limits {clauses : Clauses} {compiled : CompiledClauses}
    (ran : clauses.compile = .ok compiled) :
    (∀ looser, clauses.settings.Loosens looser → ∃ loosened : CompiledClauses,
      { clauses with settings := looser }.compile = .ok loosened ∧
      loosened.texts = compiled.texts ∧
      loosened.placeholders.nameMap = compiled.placeholders.nameMap ∧
      loosened.placeholders.valueMap = compiled.placeholders.valueMap) ∧
    (∀ clause text, compiled.text clause = some text → clauses.settings.Admits text) ∧
    ∀ clause condition, clauses.conditionOf? clause = some condition →
      ∃ text said, compiled.text clause = some text ∧
        condition.normal.read clauses.settings = .ok said ∧
        text = (said.spell compiled.placeholders.spell).text ∧
        ∀ term first others, .among term first others ∈ said.tests →
          (first :: others).length ≤ clauses.settings.maxCandidates := by
  obtain ⟨admits, under⟩ := admits_of_compile ran
  obtain ⟨⟨registrations, table⟩, spelled⟩ := spelledBy_of_compile ran
  refine ⟨fun looser loosens => ⟨_, under looser loosens, rfl, rfl, rfl⟩, admits, ?_⟩
  intro clause condition set
  obtain ⟨text, has, said, reads, same, _⟩ := spelled clause condition set
  rw [table, Placeholders.settings_registerAll, Placeholders.settings_empty] at reads
  refine ⟨text, said, has, reads, same, fun term first others mem => ?_⟩
  exact Condition.candidatesWithin_of_read reads (.among term first others) mem

/-- A filter that is as long as its limit allows and has as many candidates: it is within the limits
and compiles to the same under those that are there by default. -/
theorem compile_within_limits_at_the_limit :
    ∃ (clauses : Clauses) (compiled loosened : CompiledClauses), clauses = {
        settings := { maxBytes := 27, maxCandidates := 2 }
        filter := some (.not (.among (.path "a") [.size "b", .value (.boolean true)]))
        projection := ["b", "c"] } ∧
      clauses.compile = .ok compiled ∧
      compiled.filter = some "NOT (#a IN (size(#b), :v1))" ∧
      clauses.settings.Admits "NOT (#a IN (size(#b), :v1))" ∧
      { clauses with settings := {} }.compile = .ok loosened ∧ loosened.texts = compiled.texts := by
  obtain ⟨compiled, ran, filter⟩ : ∃ compiled : CompiledClauses, ({
      settings := { maxBytes := 27, maxCandidates := 2 }
      filter := some (.not (.among (.path "a") [.size "b", .value (.boolean true)]))
      projection := ["b", "c"] } : Clauses).compile = .ok compiled ∧
      compiled.filter = some "NOT (#a IN (size(#b), :v1))" :=
    exists_ok_of_toOption (by decide +kernel)
  obtain ⟨under, admits, _⟩ := compile_within_limits ran
  obtain ⟨loosened, ran', texts, _, _⟩ := under {} ⟨rfl, by decide, by decide⟩
  exact ⟨_, compiled, loosened, rfl, ran, filter, admits .filter _ filter, ran', texts⟩

end Clauses

end ItemExpr
