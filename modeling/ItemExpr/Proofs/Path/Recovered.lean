import ItemExpr.Proofs.Condition.Faithful
import ItemExpr.Proofs.Path.Notation

/-! # Paths are recovered from their texts

What is written for a path can be read by the grammar, and its placeholders looked up: the path
comes back, whatever names there are and whatever the table has registered since
(`Path.recover_spell`). So two paths that one table covers have the same text exactly if they are
the same (`Path.text_spell_inj`), a text that is a path loses nothing but leading zeros, and of two
texts that are compiled at any two points of a run the same is written exactly if they are the same
path (`Path.compile_recoverable`). -/

namespace ItemExpr

namespace Path

open Compile

/-! ### Reading a path in placeholders -/

/-- The **path that a text in placeholders spells**, by the grammar: names have points between them,
and indexes stand in brackets. -/
def parseSpelled (text : String) : Option Path :=
  match lex text.toList with
  | none => none
  | some tokens =>
    match Grammar.path tokens with
    | some (path, []) => some path
    | _ => none

/-- The **path that a text stands for** by a table, which knows its placeholders. -/
def recover (table : Placeholders) (text : String) : Option Path :=
  (parseSpelled text).bind (resolve table.name?)

/-- A path in placeholders is read back from its text. -/
theorem parseSpelled_text {path : Path}
    (legible : ∀ mention ∈ (path.mentions : List (Mention String)), mention.Legible) :
    parseSpelled path.text = some path := by
  have read := Grammar.path_tokens path [] ⟨by simp, by simp⟩
  rw [List.append_nil] at read
  rw [parseSpelled, (lexes_text legible).lex_eq]
  simp only [read]

/-- What a consistent table covers of the mentions of a path is legible: these are names only. -/
theorem legible_of_covers {table : Placeholders} (consistent : table.Consistent) {path : Path}
    (covers : table.Covers path.mentions) :
    ∀ mention ∈ ((path.spell table.spell).mentions : List (Mention String)), mention.Legible := by
  rw [mentions_spell, List.forall_mem_map]
  intro registration mem
  obtain ⟨placeholder, given⟩ := covers registration mem
  obtain ⟨name, _, rfl⟩ := List.mem_map.1 mem
  exact consistent.isMarked_spell_name given

/-- A path is recovered from its text by a table that covers it. -/
theorem recover_spell {table : Placeholders} (consistent : table.Consistent) {path : Path}
    (covers : table.Covers path.mentions) :
    recover table (path.spell table.spell).text = some path := by
  rw [recover, parseSpelled_text (legible_of_covers consistent covers), Option.bind_some]
  exact resolve_spell (consistent.inverts covers)

/-- **Paths that one table covers have one text exactly if they are one path.** -/
theorem text_spell_inj {table : Placeholders} (consistent : table.Consistent) {path other : Path}
    (covers : table.Covers path.mentions) (covers' : table.Covers other.mentions) :
    (path.spell table.spell).text = (other.spell table.spell).text ↔ path = other := by
  constructor
  · intro same
    have found := recover_spell consistent covers
    rw [same, recover_spell consistent covers'] at found
    exact (Option.some.inj found).symm
  · rintro rfl
    rfl

/-! ### Compiling a path -/

/-- A text that is a path is written as the spelling of that path by every later table, and every
later table covers the path. -/
theorem runOn_compile_of_parse {text : String} {path : Path} (parses : parse text = .ok path)
    (table : Placeholders) :
    ∃ spelled after, (Compile.path text).runOn table = (.ok spelled, after) ∧
      after = table.step (.path text) ∧
      ∀ later, (after.run later).Covers path.mentions ∧
        spelled = (path.spell (after.run later).spell).text := by
  have ran := Compile.path_denotes text table
  rw [Path.read, parses] at ran
  refine ⟨_, _, ran, ?_, fun later => ?_⟩
  · rw [Placeholders.step, Task.compile, runOn_bind_ok ran]
    rfl
  · obtain ⟨registrations, _, same⟩ := (path.phrase.after table).run_eq_registerAll later
    rw [same]
    exact ⟨(table.covers_registerAll path.mentions).registerAll registrations,
      (path.phrase.write_registerAll table registrations).symm⟩

/-- **Texts of paths can be told apart and read back.** On a table that a run has reached, a text
that is no path is refused for its defect, and the table stays as it was. What is written for any
other text is, by the table after it and by every later one, the path that the text is parsed as.
And whenever another text is compiled later in the run, the same is written for it exactly if it is
parsed as the same path. -/
theorem compile_recoverable (settings : Settings) (earlier : List Task) (text : String) :
    let table := (Placeholders.empty settings).run earlier
    (∀ defect, parse text = .error defect →
      (Compile.path text).runOn table = (.error (.malformed text (.path defect)), table)) ∧
    ∀ path, parse text = .ok path → ∃ spelled after,
      (Compile.path text).runOn table = (.ok spelled, after) ∧
      ∀ later, recover (after.run later) spelled = some path ∧
        ∀ text' path', parse text' = .ok path' → ∃ spelled' after',
          (Compile.path text').runOn (after.run later) = (.ok spelled', after') ∧
          (spelled = spelled' ↔ path = path') := by
  intro table
  have consistent : table.Consistent := (Placeholders.consistent_empty settings).run earlier
  refine ⟨fun defect refused => refused_of_parse_eq_error refused table, fun path parses => ?_⟩
  obtain ⟨spelled, after, ran, stepped, written⟩ := runOn_compile_of_parse parses table
  have consistent' : after.Consistent := stepped ▸ consistent.run [.path text]
  refine ⟨spelled, after, ran, fun later => ⟨?_, fun text' path' parses' => ?_⟩⟩
  · obtain ⟨covers, rfl⟩ := written later
    exact recover_spell (consistent'.run later) covers
  · obtain ⟨spelled', after', ran', stepped', written'⟩ :=
      runOn_compile_of_parse parses' (after.run later)
    refine ⟨spelled', after', ran', ?_⟩
    -- Both texts are spellings of the table that the second compilation leaves.
    have last : after' = after.run (later ++ [.path text']) := by
      rw [stepped', Placeholders.run_append, Placeholders.run_cons, Placeholders.run_nil]
    obtain ⟨covers, same⟩ := written (later ++ [.path text'])
    obtain ⟨covers', same'⟩ := written' []
    rw [Placeholders.run_nil, last] at covers' same'
    rw [same, same']
    exact text_spell_inj (consistent'.run _) covers covers'

/-- A name that looks like a placeholder which is taken, and later one that looks like its own
placeholder: the path is recovered all the same, and another spelling of it is written alike. -/
theorem compile_recoverable_lookalike :
    ∃ spelled after spelled' after',
      (Compile.path "n1.a[07]").runOn ((Placeholders.empty {}).run [.name "first name"]) =
        (.ok spelled, after) ∧ spelled = "#n2.#a[7]" ∧
      recover (after.run [.name "n2"]) spelled = some ⟨"n1", [.field "a", .index 7]⟩ ∧
      (Compile.path "n1.a[7]").runOn (after.run [.name "n2"]) = (.ok spelled', after') ∧
      spelled = spelled' := by
  have parses : parse "n1.a[07]" = .ok ⟨"n1", [.field "a", .index 7]⟩ := by decide +kernel
  have parses' : parse "n1.a[7]" = .ok ⟨"n1", [.field "a", .index 7]⟩ := by decide +kernel
  have wrote : ((Compile.path "n1.a[07]").runOn
      ((Placeholders.empty {}).run [.name "first name"])).1 = .ok "#n2.#a[7]" := by decide +kernel
  obtain ⟨spelled, after, ran, later⟩ :=
    (compile_recoverable {} [.name "first name"] "n1.a[07]").2 _ parses
  obtain ⟨found, others⟩ := later [.name "n2"]
  obtain ⟨spelled', after', ran', alike⟩ := others _ _ parses'
  rw [ran] at wrote
  exact ⟨spelled, after, spelled', after', ran, Except.ok.inj wrote, found, ran', alike.2 rfl⟩

end Path

end ItemExpr
