import ItemExpr.Proofs.Condition.Collapse
import ItemExpr.Proofs.Formula.Parser
import ItemExpr.Proofs.Placeholders.Run

/-! # Conditions mean what they say

Whoever reads the text of a compiled condition by the grammar, and looks its placeholders up in the
table, finds the condition again without its superfluous groups
(`Condition.compileClause_faithful`). -/

namespace ItemExpr

/-- A consistent table spells a name that it has behind the mark of names. -/
theorem Placeholders.Consistent.isMarked_spell_name {table : Placeholders}
    (consistent : table.Consistent) {name placeholder : String}
    (given : table.placeholder? (.name name) = some placeholder) :
    Placeholders.IsMarked '#' (table.spell (.name name)) := by
  rw [Placeholders.spell, given, Option.getD_some]
  exact consistent.marked (consistent.ofName?_iff_mem.1 given)

/-- A consistent table spells what it covers legibly, if its stem is fit to begin placeholders. -/
theorem Placeholders.Consistent.legible {table : Placeholders} (consistent : table.Consistent)
    (stem : Settings.isStem table.settings.stem = true) {registrations : List Registration}
    (covers : table.Covers registrations) :
    ∀ mention ∈ registrations.map (Mention.spell table.spell), mention.Legible := by
  rw [List.forall_mem_map]
  intro registration mem
  obtain ⟨placeholder, given⟩ := covers registration mem
  cases registration with
  | name name => exact consistent.isMarked_spell_name given
  | value value =>
    have spelled : table.spell (.value value) = placeholder := by
      rw [Placeholders.spell, given, Option.getD_some]
    show Placeholders.IsMarked ':' (table.spell (.value value))
    obtain ⟨known, found, _⟩ := consistent.ofValue?_iff_value?.1 given
    rw [spelled]
    exact consistent.marked_value stem found

/-- What a table covers is read back from its text, and then looked up in the table, up to equality
of literals. -/
theorem Formula.parse_spell {table : Placeholders} (consistent : table.Consistent)
    (stem : Settings.isStem table.settings.stem = true) {formula : Formula AttributeValue}
    (flat : formula.Flat) (covers : table.Covers formula.mentions) :
    Formula.parse (formula.spell table.spell).text = some (formula.spell table.spell) ∧
      ∃ resolved, (formula.spell table.spell).resolve table.name? table.value? = some resolved ∧
        (resolved == formula) = true := by
  constructor
  · refine Formula.parse_text (flat.spell table.spell) ?_
    rw [Formula.mentions_spell]
    exact consistent.legible stem covers
  · exact Formula.resolve_spell formula (consistent.inverts covers)

namespace Condition

open Compile

/-- Whether a text, read by the grammar and with its placeholders looked up in a table, **says**
what a condition says: what is read is, up to equality of literals, the condition once superfluous
groups are taken out of it, and nothing is left to be taken out. So text and condition are true
together, whatever tests are. -/
def Says (settings : Settings) (condition : Condition) (text : String) (table : Placeholders) :
    Prop :=
  ∃ parsed resolved collapsed said original,
    Formula.parse text = some parsed ∧
    parsed.resolve table.name? table.value? = some resolved ∧
    condition.Collapses collapsed ∧ collapsed.read settings = .ok said ∧ said.Flat ∧
    (resolved == said) = true ∧
    condition.read settings = .ok original ∧
    ∀ holds : Test AttributeValue → Bool,
      (∀ a b, (a == b) = true → holds a = holds b) →
      resolved.eval holds = original.eval holds

/-- **A compiled condition means what it says.** On every table that a run has reached, the text of
a condition that compiles says what the condition says, by the table after it. -/
theorem compileClause_faithful {settings : Settings}
    (stem : Settings.isStem settings.stem = true) (tasks : List Task) (clause : Clause)
    (condition : Condition) {text : String} {after : Placeholders}
    (compiled : (condition.compileClause clause).runOn
      ((Placeholders.empty settings).run tasks) = (.ok text, after)) :
    condition.Says settings text after := by
  have consistent : ((Placeholders.empty settings).run tasks).Consistent :=
    (Placeholders.consistent_empty settings).run tasks
  rw [runOn_compileClause, Placeholders.settings_run, Placeholders.settings_empty] at compiled
  obtain ⟨phrase, means, rfl, rfl⟩ := clauseOutcome_eq_ok compiled
  obtain ⟨said, reads, rfl⟩ := map_eq_ok_iff.1 means
  -- The condition that was given says something too, and that is true when the normal form is.
  have flat := flat_of_read_normal reads
  obtain ⟨original, reads', same⟩ := eval_of_collapses condition.collapses_normal reads
  have stem' : Settings.isStem
      (said.phrase.after ((Placeholders.empty settings).run tasks)).settings.stem = true := by
    rw [Phrase.settings_after, Placeholders.settings_run]
    exact stem
  obtain ⟨parses, resolved, resolves, equal⟩ := Formula.parse_spell
    (consistent.registerAll said.mentions) stem' flat (Placeholders.covers_registerAll _ _)
  refine ⟨_, resolved, condition.normal, said, original, parses, resolves,
    condition.collapses_normal, reads, flat, equal, reads', ?_⟩
  intro holds respects
  rw [Formula.eval_eq_of_same respects equal, same holds]

/-- A condition with superfluous groups, on a table that has one of its names already: it compiles,
and its text says what it says. -/
theorem compileClause_faithful_superfluous_groups :
    ∃ after, (compileClause .condition (.group .and
        [.group .or [.compare (.path "age") .ge (.value (.boolean true))],
          .group .and [.exists "home.city" false,
            .not (.compare (.size "tags") .eq (.value (.boolean true)))]])).runOn
        ((Placeholders.empty {}).run [.name "age"]) =
        (.ok "#age >= :v1 AND attribute_exists(#home.#city) AND NOT (size(#tags) = :v1)", after) ∧
      Says {} (.group .and
        [.group .or [.compare (.path "age") .ge (.value (.boolean true))],
          .group .and [.exists "home.city" false,
            .not (.compare (.size "tags") .eq (.value (.boolean true)))]])
        "#age >= :v1 AND attribute_exists(#home.#city) AND NOT (size(#tags) = :v1)" after := by
  generalize ran : (compileClause .condition (.group .and
    [.group .or [.compare (.path "age") .ge (.value (.boolean true))],
      .group .and [.exists "home.city" false,
        .not (.compare (.size "tags") .eq (.value (.boolean true)))]])).runOn
    ((Placeholders.empty {}).run [.name "age"]) = outcome
  have yields : outcome.1.toOption =
      some "#age >= :v1 AND attribute_exists(#home.#city) AND NOT (size(#tags) = :v1)" := by
    rw [← ran]
    decide +kernel
  obtain ⟨outcome, after⟩ := outcome
  cases outcome with
  | error refusal => cases yields
  | ok text =>
    cases yields
    exact ⟨after, rfl, compileClause_faithful (by decide) [.name "age"] .condition _ ran⟩

end Condition

end ItemExpr
