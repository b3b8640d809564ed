import ItemExpr.Proofs.Condition.Faithful
import ItemExpr.Proofs.Update.Parser

/-! # Compiled updates mean what they say

The text of a compiled update is one part for each kind of action that the update has, in the order
SET, REMOVE, ADD and DELETE. Whoever reads it by the grammar, and looks its placeholders up in the
table, finds in each part the documented entries of the actions of that part, one for one and in the
order of the update (`Update.compile_faithful`).

The actions of a part say the changes of that part (`Update.readAll_actionsOf`), so that it is
enough to read back the changes that the whole update says. -/

namespace ItemExpr.Update

open Compile

/-! ### Actions by parts -/

/-- The actions of an update that are written in a part, in order. -/
def actionsOf (update : Update) (part : UpdatePart) : Update :=
  update.filter fun entry => entry.2.part = part

/-- The parts that an update has actions for, in the order in which they are written. -/
def usedParts (update : Update) : List UpdatePart :=
  UpdatePart.all.filter fun part => update.any fun entry => entry.2.part = part

/-- Whether entries in placeholders are, by a table, the **documented entries** of some actions, one
for one and up to equality of literals. -/
def Documents (entries : List (Entry String)) (actions : Update) (table : Placeholders) : Prop :=
  ∃ changes resolved, actions.readAll = .ok changes ∧
    entries.mapM (Entry.resolve table.name? table.value?) = some resolved ∧
    (resolved == changes.map Change.entry) = true

/-- Whether a text, read by the grammar and with its placeholders looked up in a table, **says**
what an update says: its parts are those that the update has actions for, with a space between
them, and what stands behind the word of each is the documented entries of its actions. -/
def Says (update : Update) (text : String) (table : Placeholders) : Prop :=
  ∃ (body : UpdatePart → String) (entries : UpdatePart → List (Entry String)),
    text = " ".intercalate (update.usedParts.map fun part => part.word ++ " " ++ body part) ∧
    parse text = some (update.usedParts.map fun part => (part, entries part)) ∧
    ∀ part ∈ update.usedParts,
      parseEntries part (body part) = some (entries part) ∧
      Documents (entries part) (update.actionsOf part) table

/-- The changes that some actions say are written in the parts of the actions. -/
theorem map_part_of_readAll {update : Update} {changes : List (Change AttributeValue)}
    (reads : update.readAll = .ok changes) :
    changes.map Change.part = update.map fun entry => entry.2.part := by
  induction update generalizing changes with
  | nil =>
    cases reads
    rfl
  | cons entry rest ih =>
    obtain ⟨change, others, first, behind, rfl⟩ := cons_eq_ok_iff.1 reads
    rw [List.map_cons, List.map_cons, Action.part_of_read first, ih behind]

/-- The actions of a part say the changes of the part. -/
theorem readAll_actionsOf {update : Update} {changes : List (Change AttributeValue)}
    (reads : update.readAll = .ok changes) (part : UpdatePart) :
    (update.actionsOf part).readAll = .ok (changesOf changes part) := by
  induction update generalizing changes with
  | nil =>
    cases reads
    rfl
  | cons entry rest ih =>
    obtain ⟨change, others, first, behind, rfl⟩ := cons_eq_ok_iff.1 reads
    have inPart := Action.part_of_read first
    rw [actionsOf, changesOf, List.filter_cons, List.filter_cons, inPart]
    -- An action and its change are left out together.
    split
    · rw [readAll, first]
      have others' := ih behind
      rw [actionsOf] at others'
      rw [others']
      rfl
    · exact ih behind

/-- The parts that the changes of an update are written in. -/
theorem partsOf_map_spell {update : Update} {changes : List (Change AttributeValue)}
    (reads : update.readAll = .ok changes) (f : Registration → String) :
    partsOf (changes.map (Change.spell f)) = update.usedParts := by
  rw [partsOf, usedParts]
  refine List.filter_congr fun part _ => ?_
  have inParts : ∀ {α : Type} (place : α → UpdatePart) (items : List α),
      (items.any fun item => place item = part) = (items.map place).any fun p => p = part := by
    intro α place items
    rw [List.any_map]
    rfl
  rw [inParts Change.part, inParts fun entry : String × Action => entry.2.part,
    ← map_part_of_readAll reads, List.map_map]
  simp only [Function.comp_def, Change.part_spell]

/-- Spelled changes of a part are the changes of the part, spelled. -/
theorem changesOf_map_spell (f : Registration → String) (changes : List (Change AttributeValue))
    (part : UpdatePart) :
    changesOf (changes.map (Change.spell f)) part =
      (changesOf changes part).map (Change.spell f) := by
  rw [changesOf, changesOf, List.filter_map]
  simp only [Function.comp_def, Change.part_spell]

/-! ### Faithfulness -/

/-- The changes of a part, spelled by a table that covers them, are found again in the table. -/
theorem documents_changesOf {table : Placeholders} (consistent : table.Consistent) {update : Update}
    {changes : List (Change AttributeValue)} (reads : update.readAll = .ok changes)
    (covers : table.Covers (changes.flatMap Change.mentions)) (part : UpdatePart) :
    Documents ((changesOf (changes.map (Change.spell table.spell)) part).map Change.entry)
      (update.actionsOf part) table := by
  have inverts : Inverts table.spell table.name? table.value?
      ((changesOf changes part).flatMap Change.mentions) := by
    refine consistent.inverts fun registration mem => covers registration ?_
    obtain ⟨change, mem, mem'⟩ := List.mem_flatMap.1 mem
    exact List.mem_flatMap.2 ⟨change, List.mem_of_mem_filter mem, mem'⟩
  obtain ⟨resolved, resolves, equal⟩ :=
    Inverts.mapM_resolve (fun _ inverts => Change.resolve_entry_spell inverts) inverts
  refine ⟨_, resolved, readAll_actionsOf reads part, ?_, equal⟩
  rw [changesOf_map_spell, List.map_map]
  exact resolves

/-- The changes that an update says, written by parts in the spelling of a table that covers them,
say what the update says. -/
theorem says_partsText {table : Placeholders} (consistent : table.Consistent)
    (stem : Settings.isStem table.settings.stem = true) {update : Update}
    {changes : List (Change AttributeValue)} (reads : update.readAll = .ok changes)
    (covers : table.Covers (changes.flatMap Change.mentions)) :
    update.Says
      (partsText (changes.map fun change => (change.part, (change.spell table.spell).text)))
      table := by
  have legible : ∀ mention ∈ (changes.map (Change.spell table.spell)).flatMap Change.mentions,
      mention.Legible := by
    rw [Change.flatMap_mentions_map_spell]
    exact consistent.legible stem covers
  have used := partsOf_map_spell reads table.spell
  have spelled : (changes.map fun change => (change.part, (change.spell table.spell).text)) =
      (changes.map (Change.spell table.spell)).map fun change => (change.part, change.text) := by
    rw [List.map_map]
    simp only [Function.comp_def, Change.part_spell]
  refine ⟨fun part => ", ".intercalate
      ((changesOf (changes.map (Change.spell table.spell)) part).map Change.text),
    fun part => (changesOf (changes.map (Change.spell table.spell)) part).map Change.entry,
    ?_, ?_, ?_⟩
  · rw [spelled, partsText_eq, used]
    rfl
  · rw [spelled, parse_partsText legible, used]
  · intro part mem
    refine ⟨parseEntries_text legible (used ▸ mem), ?_⟩
    exact documents_changesOf consistent reads covers part

/-- **A compiled update means what it says.** On every table that a run has reached, the text of an
update that compiles says what the update says, by the table after it. -/
theorem compile_faithful {settings : Settings} (stem : Settings.isStem settings.stem = true)
    (tasks : List Task) (update : Update) {text : String} {after : Placeholders}
    (compiled : update.compile.runOn ((Placeholders.empty settings).run tasks) =
      (.ok text, after)) :
    update.Says text after := by
  have consistent : ((Placeholders.empty settings).run tasks).Consistent :=
    (Placeholders.consistent_empty settings).run tasks
  rw [runOn_compile] at compiled
  obtain ⟨phrase, means, rfl, rfl⟩ := clauseOutcome_eq_ok compiled
  obtain ⟨changes, reads, rfl⟩ := map_eq_ok_iff.1 means
  have stem' : Settings.isStem ((Change.phraseAll changes).after
      ((Placeholders.empty settings).run tasks)).settings.stem = true := by
    rw [Phrase.settings_after, Placeholders.settings_run]
    exact stem
  exact says_partsText (consistent.registerAll _) stem' (readAll_of_read reads)
    (Placeholders.covers_registerAll _ _)

/-- An update with actions of all four parts in another order, with a comma within a call, on a
table that has one of its names already: it compiles, and its text says what it says. -/
theorem compile_faithful_four_parts :
    ∃ (update : Update) (text : String) (after : Placeholders),
      update =
        [("tags", .deleteFromSet (.value (.stringSet ["x"]))),
          ("log[0].seen", .prepend (.reference "drafts" (some (.boolean true)))),
          ("age", .remove),
          ("score", .subtract (.reference "log[0].seen" none)),
          ("hits", .addToSet (.value (.number "1"))),
          ("name", .set (.value (.boolean true)))] ∧
      text = "SET #log[0].#seen = list_append(if_not_exists(#drafts, :v2), #log[0].#seen), " ++
        "#score = #score - #log[0].#seen, #name = :v2 REMOVE #age ADD #hits :v3 DELETE #tags :v1" ∧
      update.compile.runOn ((Placeholders.empty {}).run [.name "age"]) = (.ok text, after) ∧
      update.Says text after := by
  -- Only the text is evaluated, and the table after it is whatever comes out.
  refine ⟨_, _, _, rfl, rfl, (and_iff_left_of_imp fun ran =>
    compile_faithful (by decide) [.name "age"] _ ran).2 (runOn_eq_of_toOption ?_)⟩
  decide +kernel

end ItemExpr.Update
