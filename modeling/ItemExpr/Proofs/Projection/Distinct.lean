import ItemExpr.Proofs.Condition.Paths
import ItemExpr.Proofs.Path.Recovered
import ItemExpr.Proofs.Placeholders.Listing
import ItemExpr.Proofs.Projection.Tokens

/-! # Projections list each path once

A projection is written as its paths, each at its first place (`Projection.runOn_compile_of_parse`).
The compiler leaves out a text that it has written already, and while the table grows this is the
same as leaving out a path: a table tells the paths that it covers apart, and what it covers is not
registered anew. So the text of a projection is read back as its different paths, and depends on
nothing but these and the table (`Projection.compile_lists_once`). -/

namespace ItemExpr

/-- Items that come again mention nothing that has not been registered. -/
theorem Placeholders.registerAll_flatMap_eraseDups {α : Type} [BEq α] [LawfulBEq α]
    (mentions : α → List Registration) (table : Placeholders) (items : List α) :
    table.registerAll (items.eraseDups.flatMap mentions) =
      table.registerAll (items.flatMap mentions) := by
  induction items using List.reverseRecOn with
  | nil => rfl
  | append_singleton items item ih =>
    rw [eraseDups_concat, List.flatMap_append, List.flatMap_singleton, registerAll_append, ← ih]
    by_cases known : item ∈ items
    · -- The table covers the item since it came first.
      have covers : (table.registerAll (items.eraseDups.flatMap mentions)).Covers
          (mentions item) := by
        rw [ih]
        exact Covers.flatMap.1 (table.covers_registerAll _) item known
      rw [if_pos (by simpa using known), covers.registerAll_eq]
    · rw [if_neg (by simpa using known), List.flatMap_append, List.flatMap_singleton,
        registerAll_append]

/-- The phrase of some paths: their texts, in order. -/
def Path.phraseAll (paths : List Path) : Phrase (List String) where
  registrations := paths.flatMap Path.mentions
  write f := paths.map fun path => (path.spell f).text
  write_congr agree := by
    refine List.map_congr_left fun path mem => ?_
    rw [Path.spell_congr fun registration mem' =>
      agree registration (List.mem_flatMap.2 ⟨path, mem, mem'⟩)]

namespace Projection

open Compile

/-! ### Texts at their first places -/

/-- One text more is collected if it is not there yet. -/
theorem collect_concat (before texts : List String) (text : String) :
    collect before (texts ++ [text]) =
      if text ∈ collect before texts then collect before texts
      else collect before texts ++ [text] := by
  induction texts generalizing before with
  | nil => rfl
  | cons first texts ih => exact ih _

/-- What is collected from nothing are the texts at their first places. -/
theorem collect_eq_eraseDups (texts : List String) : collect [] texts = texts.eraseDups := by
  induction texts using List.reverseRecOn with
  | nil => rfl
  | append_singleton texts text ih =>
    rw [collect_concat, ih, eraseDups_concat]
    simp only [List.mem_eraseDups, List.any_beq', List.contains_iff_mem]

/-- On a consistent table the paths of a projection are written as its different paths are, and the
table after them is the same. -/
theorem phrase_eq_phraseAll {table : Placeholders} (consistent : table.Consistent)
    (paths : List Path) :
    (phrase [] paths).after table = (Path.phraseAll paths.eraseDups).after table ∧
      (phrase [] paths).written table = (Path.phraseAll paths.eraseDups).written table := by
  have same : (phrase [] paths).after table = (Path.phraseAll paths.eraseDups).after table :=
    (table.registerAll_flatMap_eraseDups Path.mentions paths).symm
  refine ⟨same, ?_⟩
  have consistent' := consistent.registerAll (paths.flatMap Path.mentions)
  have covers : ∀ path ∈ paths,
      (table.registerAll (paths.flatMap Path.mentions)).Covers path.mentions :=
    Placeholders.Covers.flatMap.1 (table.covers_registerAll _)
  rw [Phrase.written, Phrase.written, ← same]
  -- The table tells the paths apart by their texts.
  refine (collect_eq_eraseDups _).trans (eraseDups_map fun a mem b mem' => ?_)
  rw [Bool.eq_iff_iff, beq_iff_eq, beq_iff_eq]
  exact Path.text_spell_inj consistent' (covers a mem) (covers b mem')

/-! ### Reading the text -/

/-- The **paths in placeholders that a text lists**, by the grammar: paths with commas between them,
or none. -/
def parse (text : String) : Option (List Path) :=
  match lex text.toList with
  | none => none
  | some [] => some []
  | some tokens =>
    match Grammar.separated .comma Grammar.path tokens with
    | some (paths, []) => some paths
    | _ => none

/-- Listed paths are read back. -/
theorem parse_text {paths : List Path}
    (legible : ∀ path ∈ paths, ∀ mention ∈ (path.mentions : List (Mention String)),
      mention.Legible) :
    parse (", ".intercalate (paths.map Path.text)) = some paths := by
  have lexes := (separates_comma.intercalate fun path mem =>
    Path.lexes_text (legible path mem)).lex_eq
  rw [parse, lexes]
  cases paths with
  | nil => rfl
  | cons first others =>
    have between : ∀ rest, Grammar.Stops (.comma :: rest) :=
      fun rest => Grammar.stops_cons (by simp)
    have reads : ∀ path ∈ first :: others, ∀ rest, Grammar.Stops rest →
        Grammar.path (path.tokens ++ rest) = some (path, rest) :=
      fun path _ rest stop => Grammar.path_tokens path rest stop
    have stop : Grammar.Stops [] := ⟨by simp, by simp⟩
    have read := Grammar.separated_intercalate between (List.cons_ne_nil first others) reads stop
      (by simp)
    rw [List.append_nil] at read
    generalize [Token.comma].intercalate ((first :: others).map Path.tokens) = tokens at read
    cases tokens with
    | nil =>
      rw [Grammar.separated] at read
      cases read
    | cons token tokens => simp only [read]

/-- Listed paths that a consistent table covers are read back from their texts in placeholders, and
found again in the table. -/
theorem parse_spell {table : Placeholders} (consistent : table.Consistent) {paths : List Path}
    (covers : table.Covers (paths.flatMap Path.mentions)) :
    parse (", ".intercalate (paths.map fun path => (path.spell table.spell).text)) =
        some (paths.map (Path.spell table.spell)) ∧
      (paths.map (Path.spell table.spell)).mapM (Path.resolve table.name?) = some paths := by
  have covered := Placeholders.Covers.flatMap.1 covers
  constructor
  · have texts : (paths.map fun path => (path.spell table.spell).text) =
        (paths.map (Path.spell table.spell)).map Path.text := by
      rw [List.map_map]
      rfl
    rw [texts]
    refine parse_text ?_
    rw [List.forall_mem_map]
    exact fun path mem => Path.legible_of_covers consistent (covered path mem)
  · have each : ∀ path : Path, Inverts table.spell table.name? table.value? path.mentions →
        ∃ found, (path.spell table.spell).resolve table.name? = some found ∧
          (found == path) = true :=
      fun path inverts => ⟨path, Path.resolve_spell inverts, beq_self_eq_true path⟩
    obtain ⟨found, resolves, same⟩ := Inverts.mapM_resolve each (consistent.inverts covers)
    rw [List.map_id'] at same
    rw [resolves, eq_of_beq same]

/-! ### Compiling -/

/-- A projection is read as what its texts are parsed as, one for one. -/
theorem read_eq_ok_iff {texts : List String} {paths : List Path} :
    read texts = .ok paths ↔ Path.ParseAll texts paths := by
  induction texts generalizing paths with
  | nil =>
    rw [Path.ParseAll, List.forall₂_nil_left_iff]
    exact ⟨fun reads => (Except.ok.inj reads).symm, fun none => none ▸ rfl⟩
  | cons text texts ih =>
    rw [read, cons_eq_ok_iff, Path.ParseAll, List.forall₂_cons_left_iff]
    refine exists₂_congr fun path others => ?_
    rw [Path.read_eq_ok_iff, ih]

/-- A projection that is not read has a text that is no path. -/
theorem exists_of_read_eq_error {texts : List String} {refusal : CompileError}
    (refused : read texts = .error refusal) :
    ∃ text ∈ texts, ∃ defect, Path.parse text = .error defect ∧
      refusal = .malformed text (.path defect) := by
  induction texts with
  | nil => cases refused
  | cons text texts ih =>
    rw [read] at refused
    rcases cons_eq_error_iff.1 refused with first | ⟨_, _, rest⟩
    · exact ⟨text, List.mem_cons_self, Path.read_eq_error_iff.1 first⟩
    · obtain ⟨other, mem, defective⟩ := ih rest
      exact ⟨other, List.mem_cons_of_mem text mem, defective⟩

/-- On a consistent table a projection comes out as its different paths, in the order in which they
come first. -/
theorem runOn_compile_of_parse {table : Placeholders} (consistent : table.Consistent)
    {texts : List String} {paths : List Path} (parses : Path.ParseAll texts paths) :
    (compile texts).runOn table =
      clauseOutcome .projection (fun texts => ", ".intercalate texts) table
        (.ok (Path.phraseAll paths.eraseDups)) := by
  obtain ⟨after, written⟩ := phrase_eq_phraseAll consistent paths
  rw [runOn_compile, read_eq_ok_iff.2 parses]
  show clauseOutcome _ _ _ (.ok (phrase [] paths)) = _
  rw [clauseOutcome, clauseOutcome, after, written]

/-- **A projection lists each path once, at its first place.** On every table that a run has
reached, a projection with a text that is no path is refused for such a text. If it is not refused,
what its text lists, by the table after it, are the different paths that its texts are parsed as, in
the order in which they come first; without paths the text is empty. Nothing but the length of the
text can be wrong with a projection of paths, and projections with the same different paths, in the
same order, come out alike, text and table. -/
theorem compile_lists_once (settings : Settings) (tasks : List Task) (texts : List String) :
    let table := (Placeholders.empty settings).run tasks
    (∀ text ∈ texts, ∀ defect, Path.parse text = .error defect →
      ∃ place ∈ texts, ∃ defect', Path.parse place = .error defect' ∧
        (compile texts).runOn table = (.error (.malformed place (.path defect')), table)) ∧
    (∀ text after, (compile texts).runOn table = (.ok text, after) →
      ∃ paths spelled, Path.ParseAll texts paths ∧
        text = ", ".intercalate (spelled.map Path.text) ∧ parse text = some spelled ∧
        spelled.mapM (Path.resolve after.name?) = some paths.eraseDups) ∧
    (compile []).runOn table = (.ok "", table) ∧
    (∀ paths, Path.ParseAll texts paths →
      (∃ text after, (compile texts).runOn table = (.ok text, after)) ∨
        ∃ length, settings.maxBytes < length ∧ (compile texts).runOn table =
          (.error (.tooLong .projection length settings.maxBytes), table)) ∧
    ∀ paths others paths', Path.ParseAll texts paths → Path.ParseAll others paths' →
      paths.eraseDups = paths'.eraseDups →
      (compile texts).runOn table = (compile others).runOn table := by
  intro table
  have consistent : table.Consistent := (Placeholders.consistent_empty settings).run tasks
  have limit : table.settings.maxBytes = settings.maxBytes := by
    rw [Placeholders.settings_run, Placeholders.settings_empty]
  refine ⟨?_, ?_, ?_, ?_, ?_⟩
  · intro text mem defect refused
    cases reads : read texts with
    | ok paths =>
      -- All texts of a projection that is read are paths.
      obtain ⟨path, parses⟩ := exists_of_forall₂ (read_eq_ok_iff.1 reads) text mem
      rw [refused] at parses
      cases parses
    | error refusal =>
      obtain ⟨place, mem', defect', refused', rfl⟩ := exists_of_read_eq_error reads
      exact ⟨place, mem', defect', refused', by rw [runOn_compile, reads]; rfl⟩
  · intro text after compiled
    have ran := compiled
    rw [runOn_compile] at ran
    obtain ⟨_, means, _⟩ := clauseOutcome_eq_ok ran
    obtain ⟨paths, reads, _⟩ := map_eq_ok_iff.1 means
    have parses := read_eq_ok_iff.1 reads
    rw [runOn_compile_of_parse consistent parses] at compiled
    obtain ⟨_, ⟨⟩, rfl, rfl⟩ := clauseOutcome_eq_ok compiled
    obtain ⟨listed, found⟩ := parse_spell (consistent.registerAll _)
      (table.covers_registerAll (paths.eraseDups.flatMap Path.mentions))
    exact ⟨paths, _, parses, by rw [List.map_map]; rfl, listed, found⟩
  · rw [runOn_compile_of_parse consistent .nil]
    rfl
  · intro paths parses
    rw [runOn_compile_of_parse consistent parses, ← limit]
    by_cases fits : (", ".intercalate ((Path.phraseAll paths.eraseDups).written table)).utf8ByteSize
        ≤ table.settings.maxBytes
    · exact Or.inl ⟨_, _, clauseOutcome_of_fits fits⟩
    · exact Or.inr ⟨_, Nat.lt_of_not_le fits, clauseOutcome_of_not_fits fits⟩
  · intro paths others paths' parses parses' same
    rw [runOn_compile_of_parse consistent parses, runOn_compile_of_parse consistent parses', same]

/-- A projection with one path in two spellings, and a shorter one in a third: both list three paths
and come out alike. -/
theorem compile_lists_once_respelled :
    ∃ text after spelled,
      (compile ["tags[0]", "my tag", "tags[00]", "tags"]).runOn
        ((Placeholders.empty {}).run [.name "n1"]) = (.ok text, after) ∧
      text = "#tags[0], #n2, #tags" ∧ parse text = some spelled ∧
      spelled.mapM (Path.resolve after.name?) =
        some [⟨"tags", [.index 0]⟩, ⟨"my tag", []⟩, ⟨"tags", []⟩] ∧
      (compile ["tags[000]", "my tag", "tags"]).runOn
        ((Placeholders.empty {}).run [.name "n1"]) = (.ok text, after) := by
  have parses : Path.ParseAll ["tags[0]", "my tag", "tags[00]", "tags"]
      [⟨"tags", [.index 0]⟩, ⟨"my tag", []⟩, ⟨"tags", [.index 0]⟩, ⟨"tags", []⟩] :=
    read_eq_ok_iff.1 (by decide +kernel)
  have parses' : Path.ParseAll ["tags[000]", "my tag", "tags"]
      [⟨"tags", [.index 0]⟩, ⟨"my tag", []⟩, ⟨"tags", []⟩] :=
    read_eq_ok_iff.1 (by decide +kernel)
  have ran : (compile ["tags[0]", "my tag", "tags[00]", "tags"]).runOn
      ((Placeholders.empty {}).run [.name "n1"]) = (.ok "#tags[0], #n2, #tags", _) :=
    runOn_eq_of_toOption (by decide +kernel)
  obtain ⟨_, listed, _, _, alike⟩ :=
    compile_lists_once {} [.name "n1"] ["tags[0]", "my tag", "tags[00]", "tags"]
  obtain ⟨paths, spelled, parses'', _, read, found⟩ := listed _ _ ran
  have same : paths = _ := Except.ok.inj
    ((read_eq_ok_iff.2 parses'').symm.trans (read_eq_ok_iff.2 parses))
  rw [same] at found
  have different := alike _ _ _ parses parses' (by decide)
  exact ⟨_, _, spelled, ran, rfl, read, found, different.symm.trans ran⟩

end Projection

end ItemExpr
