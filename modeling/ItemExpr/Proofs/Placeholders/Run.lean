import ItemExpr.Proofs.Placeholders.Consistency
import ItemExpr.Proofs.Projection.Reading
import ItemExpr.Proofs.Update.Reading

/-! # Runs on one table

A table of placeholders is used for one `Task` after another: names and values are added, paths are
compiled, and conditions, updates and projections are, some of which may be refused. A task that is
refused leaves the table as it was, and any other one only registers what it mentions
(`Task.runOn_cases`). So every table that a run reaches is consistent, whatever the tasks
(`Consistent.run`), and what a run hands out is what its registrations are given, in order
(`run_eq_registerAll`). -/

namespace ItemExpr

open Compile

/-- A **task** for a table of placeholders. -/
inductive Task where
  /-- Add a name. -/
  | name (name : String)
  /-- Add a value. -/
  | value (value : AttributeValue)
  /-- Add a name and a value. -/
  | entry (name : String) (value : AttributeValue)
  /-- Compile a path. -/
  | path (text : String)
  /-- Compile a condition as a clause. -/
  | condition (clause : Clause) (condition : Condition)
  /-- Compile an update. -/
  | update (update : Update)
  /-- Compile a projection. -/
  | projection (paths : List String)
deriving Repr

namespace Task

/-- What a task does on a table. It answers with placeholders, or with the text of an expression. -/
def compile : Task → Compile (List String)
  | .name text => do
    let placeholder ← Compile.name text
    return [placeholder]
  | .value literal => do
    let placeholder ← Compile.value literal
    return [placeholder]
  | .entry text literal => do
    let ofName ← Compile.name text
    let ofValue ← Compile.value literal
    return [ofName, ofValue]
  | .path text => do
    let text ← Compile.path text
    return [text]
  | .condition clause subject => do
    let text ← subject.compileClause clause
    return [text]
  | .update actions => do
    let text ← Update.compile actions
    return [text]
  | .projection paths => do
    let text ← Projection.compile paths
    return [text]

/-- The **phrase of a task**: what it registers and how it answers, if its parts can be read. -/
def meaning (settings : Settings) : Task → Except CompileError (Phrase (List String))
  | .name text => .ok ((Phrase.single (.name text)).map fun text => [text])
  | .value literal => .ok ((Phrase.single (.value literal)).map fun text => [text])
  | .entry text literal =>
    .ok (Phrase.map₂ (fun ofName ofValue => [ofName, ofValue]) (.single (.name text))
      (.single (.value literal)))
  | .path text => (Path.read text).map fun path => path.phrase.map fun text => [text]
  | .condition _ subject =>
    (subject.normal.read settings).map fun formula => formula.phrase.map fun text => [text]
  | .update actions =>
    (Update.read actions).map fun changes =>
      (Change.phraseAll changes).map fun entries => [Update.partsText entries]
  | .projection texts =>
    (Projection.read texts).map fun paths =>
      (Projection.phrase [] paths).map fun texts => [", ".intercalate texts]

/-- A clause answers with its text, or it is refused and leaves the table as it was. -/
theorem cases_of_clause {α δ : Type} {compile : Compile String} {clause : Clause}
    {layOut : α → String} {table : Placeholders} {reading : Except CompileError δ}
    {phrase : δ → Phrase α}
    (ran : compile.runOn table = clauseOutcome clause layOut table (reading.map phrase)) :
    (∃ whole, reading.map (fun read => (phrase read).map fun a => [layOut a]) = .ok whole ∧
      (do let text ← compile; return [text] : Compile (List String)).runOn table =
        (.ok (whole.written table), whole.after table)) ∨
    ∃ refusal, (do let text ← compile; return [text] : Compile (List String)).runOn table =
      (.error refusal, table) := by
  rcases outcome : compile.runOn table with ⟨refusal | text, after⟩
  · right
    rw [outcome] at ran
    have same := clauseOutcome_eq_error ran.symm
    refine ⟨refusal, ?_⟩
    rw [runOn_bind, outcome, same]
  · left
    have ran' := ran
    rw [outcome] at ran'
    obtain ⟨written, means, rfl, rfl⟩ := clauseOutcome_eq_ok ran'.symm
    cases reading with
    | error refusal => cases means
    | ok read =>
      cases means
      exact ⟨_, rfl, runOn_bind_ok outcome⟩

/-- What a task does to a table: it answers with what it writes, and the table has registered what
it mentions; or it is refused, and the table is as it was. -/
theorem runOn_cases (task : Task) (table : Placeholders) :
    (∃ phrase, task.meaning table.settings = .ok phrase ∧
      task.compile.runOn table = (.ok (phrase.written table), phrase.after table)) ∨
    ∃ refusal, task.compile.runOn table = (.error refusal, table) := by
  cases task with
  | name text =>
    exact Or.inl ⟨_, rfl, (Denotes.name text).map (fun text => [text]) table⟩
  | value literal =>
    exact Or.inl ⟨_, rfl, (Denotes.value literal).map (fun text => [text]) table⟩
  | entry text literal =>
    exact Or.inl ⟨_, rfl, (Denotes.name text).map₂ (Denotes.value literal)
      (fun ofName ofValue => [ofName, ofValue]) table⟩
  | path text =>
    cases parsed : Path.parse text with
    | error defect =>
      -- A text is parsed before any of its names is added.
      right
      refine ⟨.malformed text (.path defect), ?_⟩
      rw [compile, Compile.path, parsed]
      rfl
    | ok path =>
      left
      have ran := (Compile.path_denotes text).map (fun text => [text]) table
      rw [Path.read, parsed] at ran
      refine ⟨path.phrase.map fun text => [text], ?_, ran⟩
      rw [meaning, Path.read, parsed]
      rfl
  | condition clause condition =>
    exact cases_of_clause (condition.runOn_compileClause clause table)
  | update update => exact cases_of_clause (update.runOn_compile table)
  | projection texts => exact cases_of_clause (Projection.runOn_compile texts table)

end Task

namespace Placeholders

/-! ### Runs -/

/-- The table after a task. -/
def step (table : Placeholders) (task : Task) : Placeholders := (task.compile.runOn table).2

/-- The table after some tasks, in order. -/
def run (table : Placeholders) (tasks : List Task) : Placeholders := tasks.foldl step table

@[simp] theorem run_nil (table : Placeholders) : table.run [] = table := rfl

@[simp] theorem run_cons (table : Placeholders) (task : Task) (tasks : List Task) :
    table.run (task :: tasks) = (table.step task).run tasks := rfl

@[simp] theorem run_append (table : Placeholders) (first second : List Task) :
    table.run (first ++ second) = (table.run first).run second :=
  List.foldl_append

/-- What a table gives for some registrations, in order. -/
def receipts (table : Placeholders) : List Registration → List (Registration × String)
  | [] => []
  | registration :: registrations =>
    (registration, (table.give registration).1) ::
      (table.register registration).receipts registrations

/-- What a table gives for the registrations of a task. If the task is refused, none are kept. -/
def taskReceipts (table : Placeholders) (task : Task) : List (Registration × String) :=
  match (task.compile.runOn table).1, task.meaning table.settings with
  | .ok _, .ok phrase => table.receipts phrase.registrations
  | _, _ => []

/-- The **history** of a run: everything that was registered and kept, in order, with the
placeholder that was given for it. -/
def history (table : Placeholders) : List Task → List (Registration × String)
  | [] => []
  | task :: tasks => table.taskReceipts task ++ (table.step task).history tasks

@[simp] theorem map_fst_receipts (table : Placeholders) (registrations : List Registration) :
    (table.receipts registrations).map Prod.fst = registrations := by
  induction registrations generalizing table with
  | nil => rfl
  | cons registration registrations ih => rw [receipts, List.map_cons, ih]

theorem receipts_append (table : Placeholders) (first second : List Registration) :
    table.receipts (first ++ second) =
      table.receipts first ++ (table.registerAll first).receipts second := by
  induction first generalizing table with
  | nil => rfl
  | cons registration first ih =>
    rw [List.cons_append, receipts, receipts, ih, registerAll_cons, List.cons_append]

/-- The history of a run goes on where that of its first part ends. -/
theorem history_append (table : Placeholders) (first second : List Task) :
    table.history (first ++ second) = table.history first ++ (table.run first).history second := by
  induction first generalizing table with
  | nil => rfl
  | cons task first ih =>
    rw [List.cons_append, history, history, ih, run_cons, List.append_assoc]

/-- A task registers what it is given placeholders for, and nothing else. -/
theorem step_eq_registerAll (table : Placeholders) (task : Task) :
    ∃ registrations, table.taskReceipts task = table.receipts registrations ∧
      table.step task = table.registerAll registrations := by
  rcases task.runOn_cases table with ⟨phrase, means, ran⟩ | ⟨refusal, ran⟩
  · refine ⟨phrase.registrations, ?_, ?_⟩
    · rw [taskReceipts, ran, means]
    · rw [step, ran]
      rfl
  · refine ⟨[], ?_, ?_⟩
    · rw [taskReceipts, ran]
      rfl
    · rw [step, ran]
      rfl

/-- A run registers what its history says, and the history says what was given for it. -/
theorem run_eq_registerAll (table : Placeholders) (tasks : List Task) :
    ∃ registrations, table.history tasks = table.receipts registrations ∧
      table.run tasks = table.registerAll registrations := by
  induction tasks generalizing table with
  | nil => exact ⟨[], rfl, rfl⟩
  | cons task tasks ih =>
    obtain ⟨first, given, stepped⟩ := table.step_eq_registerAll task
    obtain ⟨rest, given', ran⟩ := ih (table.step task)
    refine ⟨first ++ rest, ?_, ?_⟩
    · -- The rest of the history starts from the table after the first task.
      rw [history, given, given', stepped, receipts_append]
    · rw [run_cons, ran, stepped, registerAll_append]

@[simp] theorem settings_run (table : Placeholders) (tasks : List Task) :
    (table.run tasks).settings = table.settings := by
  obtain ⟨registrations, _, ran⟩ := table.run_eq_registerAll tasks
  rw [ran, settings_registerAll]

/-- Every table that a run reaches is consistent. -/
theorem Consistent.run {table : Placeholders} (consistent : table.Consistent)
    (tasks : List Task) : (table.run tasks).Consistent := by
  obtain ⟨registrations, _, ran⟩ := table.run_eq_registerAll tasks
  rw [ran]
  exact consistent.registerAll registrations

/-- **The maps of a table fit together** after every run from an empty one. No name and no value is
there twice; names and placeholders determine each other, and so do values and placeholders up to
equality of values; every placeholder of a name is a `#` and word characters; and the placeholders
of values are the stem behind which stand the numbers from one to the number of values. -/
theorem maps_fit_after_run (settings : Settings) (tasks : List Task) :
    let table := (empty settings).run tasks
    (table.names.map Prod.fst).Nodup ∧
    (∀ name placeholder,
      table.ofName? name = some placeholder ↔ table.name? placeholder = some name) ∧
    (table.values.Pairwise fun first second => (first.1 == second.1) = false) ∧
    (∀ value placeholder, table.ofValue? value = some placeholder ↔
      ∃ known, table.value? placeholder = some known ∧ (known == value) = true) ∧
    (∀ placeholder name, table.name? placeholder = some name → IsMarked '#' placeholder) ∧
    (∀ placeholder, (table.value? placeholder).isSome = true ↔
      ∃ number, 1 ≤ number ∧ number ≤ table.values.length ∧
        placeholder = settings.stem ++ Number.natText number) ∧
    table.valueCounter = table.values.length := by
  intro table
  have consistent : table.Consistent := (consistent_empty settings).run tasks
  have stem : table.settings.stem = settings.stem := by rw [settings_run, settings_empty]
  refine ⟨consistent.names_distinct, fun name placeholder => consistent.ofName?_iff_name?,
    consistent.values_distinct, fun value placeholder => consistent.ofValue?_iff_value?, ?_, ?_,
    consistent.values_counted⟩
  · intro placeholder name found
    exact consistent.marked (consistent.name?_iff.1 found)
  · intro placeholder
    rw [consistent.isSome_value?_iff]
    simp only [valuePlaceholder, stem]

/-! ### Placeholders once given -/

/-- A placeholder that was given for a registration is the table's answer to it in the end. -/
theorem placeholder?_of_mem_receipts {table : Placeholders} {registrations : List Registration}
    {receipt : Registration × String} (mem : receipt ∈ table.receipts registrations) :
    (table.registerAll registrations).placeholder? receipt.1 = some receipt.2 := by
  induction registrations generalizing table with
  | nil => cases mem
  | cons registration registrations ih =>
    rw [receipts] at mem
    rcases List.mem_cons.1 mem with rfl | mem
    · exact placeholder?_registerAll registrations (table.placeholder?_register_self _)
    · exact ih mem

/-- Every registration is given the placeholder that it is spelled with in the end. -/
theorem mem_receipts {table : Placeholders} {registrations : List Registration}
    {registration : Registration} (mem : registration ∈ registrations) :
    (registration, (table.registerAll registrations).spell registration) ∈
      table.receipts registrations := by
  rw [← table.map_fst_receipts registrations] at mem
  obtain ⟨⟨_, placeholder⟩, listed, rfl⟩ := List.mem_map.1 mem
  have given := placeholder?_of_mem_receipts listed
  rw [spell, given, Option.getD_some]
  exact listed

/-- A placeholder that was given in a run is the answer to its registration from then on. -/
theorem placeholder?_of_mem_history {table : Placeholders} {tasks : List Task}
    {receipt : Registration × String} (mem : receipt ∈ table.history tasks) (later : List Task) :
    ((table.run tasks).run later).placeholder? receipt.1 = some receipt.2 := by
  obtain ⟨registrations, given, ran⟩ := table.run_eq_registerAll tasks
  obtain ⟨registrations', _, ran'⟩ := (table.run tasks).run_eq_registerAll later
  rw [given] at mem
  rw [ran', ran]
  exact placeholder?_registerAll registrations' (placeholder?_of_mem_receipts mem)

/-- Whether a table gives a registration the placeholder that it was given before, and takes that
for the same name or for an equal value. -/
def Honours (table : Placeholders) (receipt : Registration × String) : Prop :=
  table.placeholder? receipt.1 = some receipt.2 ∧
    match receipt.1 with
    | .name name => table.name? receipt.2 = some name
    | .value value => ∃ known, table.value? receipt.2 = some known ∧ (known == value) = true

/-- A consistent table honours its own answers. -/
theorem Consistent.honours {table : Placeholders} (consistent : table.Consistent)
    {receipt : Registration × String}
    (given : table.placeholder? receipt.1 = some receipt.2) : table.Honours receipt := by
  obtain ⟨registration, placeholder⟩ := receipt
  refine ⟨given, ?_⟩
  cases registration with
  | name name => exact consistent.ofName?_iff_name?.1 given
  | value value => exact consistent.ofValue?_iff_value?.1 given

/-- A consistent table has one placeholder for two names exactly if they are the same. -/
theorem Consistent.ofName?_eq_iff {table : Placeholders} (consistent : table.Consistent)
    {name other placeholder placeholder' : String}
    (given : table.ofName? name = some placeholder)
    (given' : table.ofName? other = some placeholder') :
    placeholder = placeholder' ↔ name = other := by
  constructor
  · rintro rfl
    have found := consistent.ofName?_iff_name?.1 given
    rw [consistent.ofName?_iff_name?.1 given'] at found
    exact (Option.some.inj found).symm
  · rintro rfl
    rw [given] at given'
    exact Option.some.inj given'

/-- A consistent table has one placeholder for two values exactly if they are equal. -/
theorem Consistent.ofValue?_eq_iff {table : Placeholders} (consistent : table.Consistent)
    {value other : AttributeValue} {placeholder placeholder' : String}
    (given : table.ofValue? value = some placeholder)
    (given' : table.ofValue? other = some placeholder') :
    placeholder = placeholder' ↔ (value == other) = true := by
  obtain ⟨known, found, equal⟩ := consistent.ofValue?_iff_value?.1 given
  constructor
  · rintro rfl
    -- Both values are equal to the one that the placeholder stands for.
    obtain ⟨known', found', equal'⟩ := consistent.ofValue?_iff_value?.1 given'
    rw [found] at found'
    cases found'
    exact BEq.trans (BEq.symm equal) equal'
  · intro same
    have given'' : table.ofValue? other = some placeholder :=
      consistent.ofValue?_iff_value?.2 ⟨known, found, BEq.trans equal same⟩
    rw [given''] at given'
    exact Option.some.inj given'

/-- Entries stay in a table, whatever is done with it. -/
theorem entries_subset_run (table : Placeholders) (later : List Task) :
    table.names ⊆ (table.run later).names ∧ table.values ⊆ (table.run later).values := by
  obtain ⟨registrations, _, ran⟩ := table.run_eq_registerAll later
  rw [ran]
  exact table.entries_subset_registerAll registrations

/-- What a consistent table takes a placeholder of a name for, it still does later. -/
theorem Consistent.name?_run {table : Placeholders} (consistent : table.Consistent)
    {placeholder name : String} (found : table.name? placeholder = some name)
    (later : List Task) : (table.run later).name? placeholder = some name :=
  (consistent.run later).name?_iff.2
    ((table.entries_subset_run later).1 (consistent.name?_iff.1 found))

/-- What a consistent table takes a placeholder of a value for, it still does later. -/
theorem Consistent.value?_run {table : Placeholders} (consistent : table.Consistent)
    {placeholder : String} {value : AttributeValue} (found : table.value? placeholder = some value)
    (later : List Task) : (table.run later).value? placeholder = some value :=
  (consistent.run later).value?_iff.2
    ((table.entries_subset_run later).2 (consistent.value?_iff.1 found))

/-- What a task has answered is how every later table spells what the task mentions, namely with the
placeholders that were given for it, and the table gives all of that back. -/
theorem Consistent.answer_run {table : Placeholders} (consistent : table.Consistent) {task : Task}
    {answer : List String} (answered : (task.compile.runOn table).1 = .ok answer)
    (later : List Task) :
    ∃ phrase, task.meaning table.settings = .ok phrase ∧
      answer = phrase.write ((table.step task).run later).spell ∧
      (∀ registration ∈ phrase.registrations,
        (registration, ((table.step task).run later).spell registration) ∈
          table.taskReceipts task) ∧
      Inverts ((table.step task).run later).spell ((table.step task).run later).name?
        ((table.step task).run later).value? phrase.registrations := by
  rcases task.runOn_cases table with ⟨phrase, means, ran⟩ | ⟨refusal, ran⟩
  · have stepped : table.step task = phrase.after table := by rw [step, ran]
    obtain ⟨registrations, _, ran'⟩ := (table.step task).run_eq_registerAll later
    rw [ran] at answered
    cases answered
    -- What the task registered is covered by its own table, and so by every later one.
    have covers := table.covers_registerAll phrase.registrations
    refine ⟨phrase, means, ?_, ?_, ?_⟩
    · rw [ran', stepped]
      exact (phrase.write_registerAll table registrations).symm
    · intro registration mem
      rw [ran', stepped, taskReceipts, ran, means]
      show (registration, ((phrase.after table).registerAll registrations).spell registration) ∈
        table.receipts phrase.registrations
      rw [Phrase.after, covers.spell_registerAll registrations registration mem]
      exact mem_receipts mem
    · refine Consistent.inverts (consistent.run (task :: later)) ?_
      rw [run_cons, ran', stepped]
      exact covers.registerAll registrations
  · rw [ran] at answered
    cases answered

/-- **Placeholders are shared exactly and never bound anew.** A run from an empty table does no more
than the registrations of its history; two names in it got one placeholder exactly if they are the
same name, and two values exactly if they are equal. Whatever is done later, the table keeps to all
that was given and to all that could be looked up, and what a task answered is still how the table
spells, and reads, what the task mentions, with the placeholders of the history. -/
theorem placeholders_shared_and_kept (settings : Settings) (earlier later : List Task) :
    let start := empty settings
    let table := start.run earlier
    start.run (earlier ++ later) =
      start.registerAll ((start.history (earlier ++ later)).map Prod.fst) ∧
    (∀ name placeholder name' placeholder',
      (.name name, placeholder) ∈ start.history (earlier ++ later) →
      (.name name', placeholder') ∈ start.history (earlier ++ later) →
      (placeholder = placeholder' ↔ name = name')) ∧
    (∀ value placeholder value' placeholder',
      (.value value, placeholder) ∈ start.history (earlier ++ later) →
      (.value value', placeholder') ∈ start.history (earlier ++ later) →
      (placeholder = placeholder' ↔ (value == value') = true)) ∧
    (∀ receipt ∈ start.history earlier, (table.run later).Honours receipt) ∧
    (∀ placeholder name, table.name? placeholder = some name →
      (table.run later).name? placeholder = some name) ∧
    (∀ placeholder value, table.value? placeholder = some value →
      (table.run later).value? placeholder = some value) ∧
    (∀ task answer, (task.compile.runOn table).1 = .ok answer →
      ∃ phrase, task.meaning settings = .ok phrase ∧
        answer = phrase.write ((table.step task).run later).spell ∧
        (∀ registration ∈ phrase.registrations,
          (registration, ((table.step task).run later).spell registration) ∈
            start.history (earlier ++ [task])) ∧
        Inverts ((table.step task).run later).spell ((table.step task).run later).name?
          ((table.step task).run later).value? phrase.registrations) := by
  intro start table
  have consistent : table.Consistent := (consistent_empty settings).run earlier
  have consistent' : (start.run (earlier ++ later)).Consistent :=
    (consistent_empty settings).run (earlier ++ later)
  refine ⟨?_, ?_, ?_, ?_, ?_, ?_, ?_⟩
  · obtain ⟨registrations, given, ran⟩ := start.run_eq_registerAll (earlier ++ later)
    rw [given, map_fst_receipts, ran]
  · intro name placeholder name' placeholder' mem mem'
    exact consistent'.ofName?_eq_iff (placeholder?_of_mem_history mem [])
      (placeholder?_of_mem_history mem' [])
  · intro value placeholder value' placeholder' mem mem'
    exact consistent'.ofValue?_eq_iff (placeholder?_of_mem_history mem [])
      (placeholder?_of_mem_history mem' [])
  · intro receipt mem
    exact (consistent.run later).honours (placeholder?_of_mem_history mem later)
  · intro placeholder name found
    exact consistent.name?_run found later
  · intro placeholder value found
    exact consistent.value?_run found later
  · intro task answer answered
    obtain ⟨phrase, means, same, given, inverts⟩ := consistent.answer_run answered later
    rw [settings_run, settings_empty] at means
    refine ⟨phrase, means, same, ?_, inverts⟩
    intro registration mem
    rw [history_append, history, history, List.append_nil]
    exact List.mem_append_right _ (given registration mem)

end Placeholders

end ItemExpr
