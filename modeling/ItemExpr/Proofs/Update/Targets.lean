import ItemExpr.Proofs.Condition.Paths
import ItemExpr.Proofs.Path.Grammar
import ItemExpr.Proofs.Path.Recovered
import ItemExpr.Proofs.Update.Faithful

/-! # The targets of updates

An update is refused if it has two actions on one text. Two texts without leading zeros are
different paths, so that the actions of such an update have different targets, and what is written
for them has different targets too (`Update.compile_targets_distinct`). Texts that differ only in
leading zeros are not the same text but the same path, and an update with two of them is written
with one target twice (`Update.compile_repeats_target`). -/

namespace ItemExpr

open Compile

/-- The **target of a change**. -/
def Change.target {ν : Type} : Change ν → Path
  | .remove target => target
  | .change _ target _ => target

/-- A change mentions its target. -/
theorem Change.mem_mentions_of_mem_target {ν : Type} {change : Change ν} {mention : Mention ν}
    (mem : mention ∈ change.target.mentions) : mention ∈ change.mentions := by
  cases change with
  | remove target => exact mem
  | change kind target source => exact List.mem_append_left _ mem

/-- The target of a spelled change is its target, spelled. -/
theorem Change.target_spell (f : Registration → String) (change : Change AttributeValue) :
    (change.spell f).target = change.target.spell f := by
  cases change <;> rfl

namespace Update

/-! ### Texts of targets -/

/-- There is no repeated path exactly if all paths are different and none was seen before. -/
theorem firstRepeated?_eq_none_iff {seen paths : List String} :
    firstRepeated? seen paths = none ↔ paths.Nodup ∧ ∀ path ∈ paths, path ∉ seen := by
  induction paths generalizing seen with
  | nil => exact iff_of_true rfl ⟨List.nodup_nil, nofun⟩
  | cons path paths ih =>
    rw [firstRepeated?, List.nodup_cons, List.forall_mem_cons]
    by_cases known : path ∈ seen
    · rw [if_pos known]
      exact iff_of_false nofun fun all => all.2.1 known
    · rw [if_neg known, ih]
      simp only [List.mem_cons, not_or]
      constructor
      · rintro ⟨once, fresh⟩
        have alone : path ∉ paths := fun mem => (fresh path mem).1 rfl
        exact ⟨⟨alone, once⟩, known, fun other mem => (fresh other mem).2⟩
      · rintro ⟨⟨alone, once⟩, -, fresh⟩
        exact ⟨once, fun other mem => ⟨fun same => alone (same ▸ mem), fresh other mem⟩⟩

/-- An action says a change of what its path is parsed as. -/
theorem Action.parse_of_read {path : String} {action : Action} {change : Change AttributeValue}
    (reads : action.read path = .ok change) : Path.parse path = .ok change.target := by
  rw [read] at reads
  split at reads
  · cases reads
  · obtain ⟨target, read, reads⟩ := bind_eq_ok_iff.1 reads
    have parses := Path.read_eq_ok_iff.1 read
    cases action with
    | remove =>
      cases reads
      exact parses
    | _ =>
      obtain ⟨source, _, same⟩ := bind_eq_ok_iff.1 reads
      cases same
      exact parses

/-- The actions of an update say changes of what their paths are parsed as, one for one. -/
theorem forall₂_target_of_readAll {update : Update} {changes : List (Change AttributeValue)}
    (reads : update.readAll = .ok changes) :
    List.Forall₂ (fun action change => Path.parse action.1 = .ok change.target) update changes := by
  induction update generalizing changes with
  | nil =>
    cases reads
    exact .nil
  | cons entry rest ih =>
    obtain ⟨change, others, first, behind, rfl⟩ := cons_eq_ok_iff.1 reads
    exact .cons (Action.parse_of_read first) (ih behind)

/-- The actions of an update that is read have different texts of targets. -/
theorem nodup_of_read {update : Update} {changes : List (Change AttributeValue)}
    (reads : update.read = .ok changes) : (update.map Prod.fst).Nodup := by
  rw [read] at reads
  split at reads
  · cases reads
  · split at reads
    · cases reads
    · next fresh => exact (firstRepeated?_eq_none_iff.1 fresh).1

/-! ### Targets -/

/-- Actions with different texts of targets say changes of different targets, unless one of the
texts has a leading zero. -/
theorem pairwise_target {update : Update} {changes : List (Change AttributeValue)}
    (parses : List.Forall₂ (fun action change => Path.parse action.1 = .ok change.target)
      update changes)
    (once : (update.map Prod.fst).Nodup) :
    (update.zip changes).Pairwise fun a b => a.2.target = b.2.target →
      Path.hasPaddedIndex a.1.1.toList = true ∨ Path.hasPaddedIndex b.1.1.toList = true := by
  induction parses with
  | nil => exact .nil
  | @cons action change update changes first rest ih =>
    rw [List.map_cons, List.nodup_cons] at once
    rw [List.zip_cons_cons, List.pairwise_cons]
    refine ⟨fun other mem same => ?_, ih once.2⟩
    by_contra plain
    rw [not_or, Bool.not_eq_true, Bool.not_eq_true] at plain
    have parses := List.forall₂_zip rest mem
    -- Without leading zeros both texts are the text of the one path.
    have text := Path.eq_text_of_parse first plain.1
    have text' := Path.eq_text_of_parse parses plain.2
    rw [same] at text
    refine once.1 ?_
    rw [text.trans text'.symm]
    exact List.mem_map_of_mem (List.of_mem_zip mem).1

/-- Changes of actions without leading zeros have different targets. -/
theorem nodup_target_of_pairwise {update : Update} {changes : List (Change AttributeValue)}
    (length : update.length = changes.length)
    (apart : (update.zip changes).Pairwise fun a b => a.2.target = b.2.target →
      Path.hasPaddedIndex a.1.1.toList = true ∨ Path.hasPaddedIndex b.1.1.toList = true)
    (plain : ∀ action ∈ update, Path.hasPaddedIndex action.1.toList = false) :
    (changes.map Change.target).Nodup := by
  have second : (update.zip changes).map Prod.snd = changes := List.map_snd_zip length.ge
  rw [← second, List.map_map, List.Nodup, List.pairwise_map]
  refine apart.imp_of_mem fun {a b} mem mem' leading same => ?_
  rcases leading same with zero | zero
  · exact absurd (plain a.1 (List.of_mem_zip mem).1) (Bool.not_eq_false _ ▸ zero)
  · exact absurd (plain b.1 (List.of_mem_zip mem').1) (Bool.not_eq_false _ ▸ zero)

/-- Changes that a consistent table covers are written with one target exactly if they have one. -/
theorem text_target_spell_iff {table : Placeholders} (consistent : table.Consistent)
    {changes : List (Change AttributeValue)}
    (covers : table.Covers (changes.flatMap Change.mentions)) {a b : Change AttributeValue}
    (mem : a ∈ changes) (mem' : b ∈ changes) :
    (a.spell table.spell).target.text = (b.spell table.spell).target.text ↔
      a.target = b.target := by
  have covered : ∀ change ∈ changes, table.Covers change.target.mentions := by
    intro change within mention mentioned
    exact Placeholders.Covers.flatMap.1 covers change within mention
      (Change.mem_mentions_of_mem_target mentioned)
  rw [Change.target_spell, Change.target_spell]
  exact Path.text_spell_inj consistent (covered a mem) (covered b mem')

/-- **The targets of a compiled update**: on every table that a run has reached, the actions say
changes of what their texts are parsed as, and these changes are what is written. Two of them are
written with one target exactly if they have one target, and then the text of one of the two actions
has a leading zero. So without leading zeros no target is there twice. -/
theorem compile_targets_distinct {settings : Settings} (tasks : List Task) (update : Update)
    {text : String} {after : Placeholders}
    (compiled : update.compile.runOn ((Placeholders.empty settings).run tasks) =
      (.ok text, after)) :
    ∃ changes : List (Change AttributeValue),
      text = partsText (changes.map fun change => (change.part, (change.spell after.spell).text)) ∧
      List.Forall₂ (fun action change => Path.parse action.1 = .ok change.target) update changes ∧
      (∀ a ∈ changes, ∀ b ∈ changes,
        (a.spell after.spell).target.text = (b.spell after.spell).target.text ↔
          a.target = b.target) ∧
      ((update.zip changes).Pairwise fun a b => a.2.target = b.2.target →
        Path.hasPaddedIndex a.1.1.toList = true ∨ Path.hasPaddedIndex b.1.1.toList = true) ∧
      ((∀ action ∈ update, Path.hasPaddedIndex action.1.toList = false) →
        (changes.map Change.target).Nodup ∧
        (changes.map fun change => (change.spell after.spell).target.text).Nodup) := by
  have consistent : ((Placeholders.empty settings).run tasks).Consistent :=
    (Placeholders.consistent_empty settings).run tasks
  rw [runOn_compile] at compiled
  obtain ⟨phrase, means, rfl, rfl⟩ := clauseOutcome_eq_ok compiled
  obtain ⟨changes, reads, rfl⟩ := map_eq_ok_iff.1 means
  have consistent' := consistent.registerAll (Change.phraseAll changes).registrations
  have covers := Placeholders.covers_registerAll ((Placeholders.empty settings).run tasks)
    (Change.phraseAll changes).registrations
  have parses := forall₂_target_of_readAll (readAll_of_read reads)
  have apart := pairwise_target parses (nodup_of_read reads)
  have written : ∀ a ∈ changes, ∀ b ∈ changes, _ ↔ a.target = b.target := fun a mem b mem' =>
    text_target_spell_iff consistent' covers mem mem'
  refine ⟨changes, rfl, parses, written, apart, fun plain => ?_⟩
  have different := nodup_target_of_pairwise parses.length_eq apart plain
  refine ⟨different, ?_⟩
  rw [List.Nodup, List.pairwise_map] at different ⊢
  exact different.imp_of_mem fun mem mem' differ same => differ ((written _ mem _ mem').1 same)

/-- An update of three places of one attribute, on a table that has the attribute already: without
leading zeros, the targets are different. -/
theorem compile_targets_distinct_without_zeros :
    ∃ (update : Update) (after : Placeholders) (changes : List (Change AttributeValue)),
      update = [("a[10]", .remove), ("a[0].b", .set (.value (.boolean true))), ("a[1]", .remove)] ∧
      update.compile.runOn ((Placeholders.empty {}).run [.name "a"]) =
        (.ok "SET #a[0].#b = :v1 REMOVE #a[10], #a[1]", after) ∧
      List.Forall₂ (fun action change => Path.parse action.1 = .ok change.target) update changes ∧
      (∀ action ∈ update, Path.hasPaddedIndex action.1.toList = false) ∧
      (changes.map Change.target).Nodup ∧
      (changes.map fun change => (change.spell after.spell).target.text).Nodup := by
  let update : Update :=
    [("a[10]", .remove), ("a[0].b", .set (.value (.boolean true))), ("a[1]", .remove)]
  have ran : update.compile.runOn ((Placeholders.empty {}).run [.name "a"]) =
      (.ok "SET #a[0].#b = :v1 REMOVE #a[10], #a[1]", _) :=
    runOn_eq_of_toOption (by decide +kernel)
  have plain : ∀ action ∈ update, Path.hasPaddedIndex action.1.toList = false := by
    simp only [update, List.forall_mem_cons]
    exact ⟨by decide, by decide, by decide, nofun⟩
  obtain ⟨changes, _, parses, _, _, distinct⟩ := compile_targets_distinct [.name "a"] update ran
  exact ⟨update, _, changes, rfl, ran, parses, plain, distinct plain⟩

/-- Two spellings of one path with different leading zeros: the update is not refused, and the one
target is written twice. -/
theorem compile_repeats_target :
    ∃ (update : Update) (text : String) (after : Placeholders),
      update = [("a[0]", .set (.value (.boolean true))), ("a[00]", .remove)] ∧
      update.compile.runOn (Placeholders.empty {}) = (.ok text, after) ∧
      text = "SET #a[0] = :v1 REMOVE #a[0]" ∧
      ¬∃ paths, Path.ParseAll (update.map Prod.fst) paths ∧ paths.Nodup := by
  refine ⟨_, _, _, rfl, runOn_eq_of_toOption (by decide +kernel), rfl, ?_⟩
  rintro ⟨paths, parses, once⟩
  have same : Path.parse "a[0]" = Path.parse "a[00]" := by decide +kernel
  match paths, parses with
  | [first, second], .cons parses (.cons parses' .nil) =>
    have equal : first = second := Except.ok.inj (parses.symm.trans (same.trans parses'))
    rw [equal] at once
    exact (List.nodup_cons.1 once).1 List.mem_cons_self

end Update

end ItemExpr
