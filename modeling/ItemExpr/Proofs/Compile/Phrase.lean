import ItemExpr.Proofs.Placeholders.Registration

/-! # What compilations write

Apart from its refusals, a compilation does two things: it registers what it comes across, and it
writes down the placeholders that it is given. A `Phrase` says both without a table: the
registrations in order, and what is written once every one of them has its spelling. A compilation
`Denotes` the phrases that it works through on every table, and denotations compose as compilations
do, because a placeholder that was written stays what it was. -/

namespace ItemExpr

/-- A sequence has a result exactly if each of its two parts has one. -/
theorem bind_eq_ok_iff {ε α β : Type} {first : Except ε α} {next : α → Except ε β} {result : β} :
    first >>= next = .ok result ↔ ∃ value, first = .ok value ∧ next value = .ok result := by
  constructor
  · intro ran
    cases first with
    | error refusal => cases ran
    | ok value => exact ⟨value, rfl, ran⟩
  · rintro ⟨value, rfl, ran⟩
    exact ran

/-- A sequence is refused if one of its parts is. -/
theorem bind_eq_error_iff {ε α β : Type} {first : Except ε α} {next : α → Except ε β}
    {refusal : ε} :
    first >>= next = .error refusal ↔
      first = .error refusal ∨ ∃ value, first = .ok value ∧ next value = .error refusal := by
  cases first with
  | error other =>
    constructor
    · rintro ⟨⟩
      exact Or.inl rfl
    · rintro (⟨⟨⟩⟩ | ⟨_, ⟨⟩, _⟩)
      rfl
  | ok value =>
    constructor
    · intro refused
      exact Or.inr ⟨value, rfl, refused⟩
    · rintro (⟨⟨⟩⟩ | ⟨_, ⟨⟩, refused⟩)
      exact refused

section Lists

variable {ε α : Type} {first : Except ε α} {rest : Except ε (List α)}

/-- A list of results is the first result and the others. -/
theorem cons_eq_ok_iff {results : List α} :
    (do let result ← first; let others ← rest; return result :: others : Except ε (List α)) =
        .ok results ↔
      ∃ result others, first = .ok result ∧ rest = .ok others ∧ results = result :: others := by
  rw [bind_eq_ok_iff]
  refine exists_congr fun result => ?_
  rw [bind_eq_ok_iff]
  constructor
  · rintro ⟨known, others, known', ⟨⟩⟩
    exact ⟨others, known, known', rfl⟩
  · rintro ⟨others, known, known', rfl⟩
    exact ⟨known, others, known', rfl⟩

/-- A list of results is refused for the first of them, or for the others. -/
theorem cons_eq_error_iff {refusal : ε} :
    (do let result ← first; let others ← rest; return result :: others : Except ε (List α)) =
        .error refusal ↔
      first = .error refusal ∨ ∃ result, first = .ok result ∧ rest = .error refusal := by
  rw [bind_eq_error_iff]
  refine or_congr_right (exists_congr fun result => and_congr_right fun _ => ?_)
  rw [bind_eq_error_iff]
  exact or_iff_left nofun

end Lists

theorem map_eq_ok_iff {ε α β : Type} {reading : Except ε α} {change : α → β} {result : β} :
    reading.map change = .ok result ↔ ∃ value, reading = .ok value ∧ change value = result := by
  cases reading with
  | error refusal =>
    constructor
    · intro mapped
      cases mapped
    · rintro ⟨_, ⟨⟩, _⟩
  | ok value =>
    constructor
    · intro mapped
      cases mapped
      exact ⟨value, rfl, rfl⟩
    · rintro ⟨_, ⟨⟩, rfl⟩
      rfl

/-- An outcome that shows something is the result that shows it. -/
theorem exists_ok_of_toOption {ε α β : Type} {outcome : Except ε α} {view : α → β} {shown : β}
    (yields : outcome.toOption.map view = some shown) :
    ∃ result, outcome = .ok result ∧ view result = shown := by
  cases outcome with
  | error refusal => cases yields
  | ok result => exact ⟨result, rfl, Option.some.inj yields⟩

/-- A **phrase**: what a compilation registers, and what it writes when that is spelled. -/
structure Phrase (α : Type) where
  /-- What is registered, in order. -/
  registrations : List Registration
  /-- What is written, given the spelling of what is registered. -/
  write : (Registration → String) → α
  /-- Only what is registered is written. -/
  write_congr : ∀ {f g : Registration → String},
    (∀ registration ∈ registrations, f registration = g registration) → write f = write g

namespace Phrase

variable {α β γ δ : Type}

/-- The phrase that registers nothing. -/
def pure (result : α) : Phrase α where
  registrations := []
  write _ := result
  write_congr _ := rfl

/-- The phrase of one registration. -/
def single (registration : Registration) : Phrase String where
  registrations := [registration]
  write spelling := spelling registration
  write_congr agree := agree registration (List.mem_singleton_self _)

/-- A phrase whose result is changed. -/
def map (change : α → β) (phrase : Phrase α) : Phrase β where
  registrations := phrase.registrations
  write spelling := change (phrase.write spelling)
  write_congr agree := congrArg change (phrase.write_congr agree)

/-- Two phrases, one after the other. -/
def map₂ (combine : α → β → γ) (first : Phrase α) (second : Phrase β) : Phrase γ where
  registrations := first.registrations ++ second.registrations
  write spelling := combine (first.write spelling) (second.write spelling)
  write_congr agree := by
    rw [List.forall_mem_append] at agree
    rw [first.write_congr agree.1, second.write_congr agree.2]

/-- Three phrases, one after the other. -/
def map₃ (combine : α → β → γ → δ) (first : Phrase α) (second : Phrase β) (third : Phrase γ) :
    Phrase δ :=
  map₂ (fun a (b, c) => combine a b c) first (map₂ Prod.mk second third)

/-- The table after a phrase. -/
def after (phrase : Phrase α) (table : Placeholders) : Placeholders :=
  table.registerAll phrase.registrations

@[simp] theorem settings_after (phrase : Phrase α) (table : Placeholders) :
    (phrase.after table).settings = table.settings :=
  table.settings_registerAll phrase.registrations

/-- What a phrase writes on a table. -/
def written (phrase : Phrase α) (table : Placeholders) : α :=
  phrase.write (phrase.after table).spell

/-- What was written on a table stays the spelling of a phrase, whatever is registered later. -/
theorem write_registerAll (phrase : Phrase α) (table : Placeholders)
    (later : List Registration) :
    phrase.write ((phrase.after table).registerAll later).spell = phrase.written table :=
  phrase.write_congr ((table.covers_registerAll phrase.registrations).spell_registerAll later)

/-- Two phrases write one after the other. -/
theorem map₂_written (combine : α → β → γ) (first : Phrase α) (second : Phrase β)
    (table : Placeholders) :
    ((map₂ combine first second).written table, (map₂ combine first second).after table) =
      (combine (first.written table) (second.written (first.after table)),
        second.after (first.after table)) := by
  -- What the first phrase has written is not changed by what the second one registers.
  have kept := first.write_registerAll table second.registrations
  have together : (map₂ combine first second).after table =
      (first.after table).registerAll second.registrations :=
    table.registerAll_append first.registrations second.registrations
  rw [written, together, ← kept]
  rfl

end Phrase

namespace Compile

variable {α β γ δ : Type}

/-- Whether a run on a table works through a phrase, or is refused as foreseen. -/
def Settles (table : Placeholders) (outcome : Except CompileError α × Placeholders) :
    Except CompileError (Phrase α) → Prop
  | .ok phrase => outcome = (.ok (phrase.written table), phrase.after table)
  | .error refusal => outcome.1 = .error refusal

/-- Whether a compilation works through the phrase that the settings give it as its **meaning**, or
is refused as they say. -/
def Denotes (compile : Compile α) (meaning : Settings → Except CompileError (Phrase α)) : Prop :=
  ∀ table : Placeholders, Settles table (compile.runOn table) (meaning table.settings)

/-- A computation that yields a result has some table after it. -/
theorem runOn_eq_of_toOption {compile : Compile α} {table : Placeholders} {result : α}
    (yields : (compile.runOn table).1.toOption = some result) :
    compile.runOn table = (.ok result, (compile.runOn table).2) := by
  rcases outcome : compile.runOn table with ⟨refusal | value, after⟩
  · rw [outcome] at yields
    cases yields
  · rw [outcome] at yields
    cases yields
    rfl

/-- A computation is refused if its first part is. -/
theorem runOn_bind_error {first : Compile α} {next : α → Compile β} {table : Placeholders}
    {refusal : CompileError} (refused : (first.runOn table).1 = .error refusal) :
    ((first >>= next).runOn table).1 = .error refusal := by
  rw [runOn_bind]
  rcases outcome : first.runOn table with ⟨refusal' | result, after⟩
  · rw [outcome] at refused
    cases refused
    rfl
  · rw [outcome] at refused
    cases refused

/-- A computation goes on with the result of its first part. -/
theorem runOn_bind_ok {first : Compile α} {next : α → Compile β} {table after : Placeholders}
    {result : α} (ran : first.runOn table = (.ok result, after)) :
    (first >>= next).runOn table = (next result).runOn after := by
  rw [runOn_bind, ran]

/-- A computation succeeds exactly if its two parts do, one after the other. -/
theorem runOn_bind_eq_ok {first : Compile α} {next : α → Compile β} {table after : Placeholders}
    {result : β} :
    (first >>= next).runOn table = (.ok result, after) ↔
      ∃ value between, first.runOn table = (.ok value, between) ∧
        (next value).runOn between = (.ok result, after) := by
  constructor
  · intro ran
    rw [runOn_bind] at ran
    rcases outcome : first.runOn table with ⟨refusal | value, between⟩
    · rw [outcome] at ran
      cases ran
    · rw [outcome] at ran
      exact ⟨value, between, rfl, ran⟩
  · rintro ⟨value, between, ran, ran'⟩
    rw [runOn_bind_ok ran, ran']

namespace Denotes

theorem congr {compile : Compile α} {meaning meaning' : Settings → Except CompileError (Phrase α)}
    (denotes : compile.Denotes meaning) (same : ∀ settings, meaning settings = meaning' settings) :
    compile.Denotes meaning' := by
  rw [← funext same]
  exact denotes

theorem pure (result : α) : (Pure.pure result : Compile α).Denotes fun _ => .ok (.pure result) :=
  fun _ => rfl

theorem throw (refusal : CompileError) :
    (MonadExcept.throw refusal : Compile α).Denotes fun _ => .error refusal :=
  fun _ => rfl

theorem refuse (place : String) (defect : Defect) :
    (Compile.refuse place defect : Compile α).Denotes fun _ => .error (.malformed place defect) :=
  fun _ => rfl

/-- A name writes its placeholder. -/
theorem name (text : String) :
    (Compile.name text).Denotes fun _ => .ok (.single (.name text)) := by
  intro table
  show ((.ok (table.give (.name text)).1, _) : Except CompileError String × _) =
    (.ok (((table.register (.name text)).placeholder? (.name text)).getD ""), _)
  rw [table.placeholder?_register_self]
  rfl

/-- A literal writes its placeholder. -/
theorem value (literal : AttributeValue) :
    (Compile.value literal).Denotes fun _ => .ok (.single (.value literal)) := by
  intro table
  show ((.ok (table.give (.value literal)).1, _) : Except CompileError String × _) =
    (.ok (((table.register (.value literal)).placeholder? (.value literal)).getD ""), _)
  rw [table.placeholder?_register_self]
  rfl

/-- A compilation may look at the settings. -/
theorem get {next : Placeholders → Compile α}
    {meaning : Settings → Except CompileError (Phrase α)}
    (denotes : ∀ table, (next table).Denotes fun _ => meaning table.settings) :
    (MonadState.get >>= next).Denotes meaning :=
  fun table => denotes table table

/-- The result of a compilation may be changed. -/
theorem map {compile : Compile α} {meaning : Settings → Except CompileError (Phrase α)}
    (denotes : compile.Denotes meaning) (change : α → β) :
    (do let a ← compile; return change a).Denotes fun settings => do
      let phrase ← meaning settings
      return phrase.map change := by
  intro table
  have ran := denotes table
  show Settles table _ (meaning table.settings >>= _)
  cases means : meaning table.settings with
  | error refusal =>
    rw [means] at ran
    exact runOn_bind_error ran
  | ok phrase =>
    rw [means] at ran
    exact runOn_bind_ok ran

/-- A compilation may go on with the result of another one, as long as what it registers does not
depend on that. -/
theorem bind {first : Compile α} {next : α → Compile β}
    {meaning : Settings → Except CompileError (Phrase α)}
    {meaning' : Settings → Except CompileError (Phrase (α → β))}
    (denotes : first.Denotes meaning)
    (denotes' : ∀ a, (next a).Denotes fun settings => do
      let phrase ← meaning' settings
      return phrase.map (· a)) :
    (first >>= next).Denotes fun settings => do
      let phrase ← meaning settings
      let phrase' ← meaning' settings
      return phrase.map₂ (fun a result => result a) phrase' := by
  intro table
  have ran := denotes table
  show Settles table _ (meaning table.settings >>= _)
  cases means : meaning table.settings with
  | error refusal =>
    rw [means] at ran
    exact runOn_bind_error ran
  | ok phrase =>
    rw [means] at ran
    rw [runOn_bind_ok ran]
    -- The second compilation runs on a table of the same settings.
    have ran' : Settles (phrase.after table) _ (meaning' _ >>= _) :=
      denotes' (phrase.written table) (phrase.after table)
    rw [phrase.settings_after] at ran'
    show Settles table _ (meaning' table.settings >>= _)
    cases means' : meaning' table.settings with
    | error refusal =>
      rw [means'] at ran'
      exact ran'
    | ok phrase' =>
      rw [means'] at ran'
      refine Eq.trans ran' ?_
      exact congrArg (fun outcome => (Except.ok outcome.1, outcome.2))
        (Phrase.map₂_written (fun a result => result a) phrase phrase' table).symm

/-- Two compilations, one after the other. -/
theorem map₂ {first : Compile α} {second : Compile β}
    {meaning : Settings → Except CompileError (Phrase α)}
    {meaning' : Settings → Except CompileError (Phrase β)}
    (denotes : first.Denotes meaning) (denotes' : second.Denotes meaning')
    (combine : α → β → γ) :
    (do let a ← first; let b ← second; return combine a b).Denotes fun settings => do
      let phrase ← meaning settings
      let phrase' ← meaning' settings
      return phrase.map₂ combine phrase' := by
  -- The second compilation writes a function that waits for the result of the first.
  have next : ∀ a, (do let b ← second; return combine a b).Denotes fun settings => do
      let phrase ← (do let phrase ← meaning' settings; return phrase.map fun b a => combine a b)
      return phrase.map fun write : α → γ => write a := by
    intro a
    refine (denotes'.map (combine a)).congr fun settings => ?_
    cases meaning' settings <;> rfl
  refine (denotes.bind next).congr fun settings => ?_
  cases meaning settings with
  | error refusal => rfl
  | ok phrase => cases meaning' settings <;> rfl

/-- Three compilations, one after the other. -/
theorem map₃ {first : Compile α} {second : Compile β} {third : Compile γ}
    {meaning : Settings → Except CompileError (Phrase α)}
    {meaning' : Settings → Except CompileError (Phrase β)}
    {meaning'' : Settings → Except CompileError (Phrase γ)}
    (denotes : first.Denotes meaning) (denotes' : second.Denotes meaning')
    (denotes'' : third.Denotes meaning'') (combine : α → β → γ → δ) :
    (do let a ← first; let b ← second; let c ← third; return combine a b c).Denotes
      fun settings => do
        let phrase ← meaning settings
        let phrase' ← meaning' settings
        let phrase'' ← meaning'' settings
        return phrase.map₃ combine phrase' phrase'' := by
  have pair := denotes.map₂ (denotes'.map₂ denotes'' Prod.mk) fun a (b, c) => combine a b c
  simp only [bind_assoc, pure_bind] at pair
  exact pair

end Denotes

/-! ### Clauses -/

/-- A text is refused exactly if it is longer than the settings of the table allow. -/
theorem runOn_limitLength (clause : Clause) (text : String) (table : Placeholders) :
    (limitLength clause text).runOn table =
      if table.settings.maxBytes < text.utf8ByteSize then
        (.error (.tooLong clause text.utf8ByteSize table.settings.maxBytes), table)
      else (.ok text, table) := by
  rw [limitLength, runOn_bind_ok (runOn_get table)]
  by_cases long : table.settings.maxBytes < text.utf8ByteSize
  · rw [if_pos long, if_pos long, runOn_throw]
  · rw [if_neg long, if_neg long, runOn_pure]

theorem runOn_transaction_error {compile : Compile α} {table : Placeholders}
    {refusal : CompileError} (refused : (compile.runOn table).1 = .error refusal) :
    (transaction compile).runOn table = (.error refusal, table) := by
  rw [runOn_transaction]
  rcases outcome : compile.runOn table with ⟨refusal' | result, after⟩
  · rw [outcome] at refused
    cases refused
    rfl
  · rw [outcome] at refused
    cases refused

theorem runOn_transaction_ok {compile : Compile α} {table after : Placeholders} {result : α}
    (ran : compile.runOn table = (.ok result, after)) :
    (transaction compile).runOn table = (.ok result, after) := by
  rw [runOn_transaction, ran]

/-- What becomes of a **whole clause** on a table: it is refused, which leaves the table as it was,
or its phrase is laid out as a text, and what the phrase registers is kept. -/
def clauseOutcome (clause : Clause) (layOut : α → String) (table : Placeholders) :
    Except CompileError (Phrase α) → Except CompileError String × Placeholders
  | .error refusal => (.error refusal, table)
  | .ok phrase =>
    let text := layOut (phrase.written table)
    if table.settings.maxBytes < text.utf8ByteSize then
      (.error (.tooLong clause text.utf8ByteSize table.settings.maxBytes), table)
    else (.ok text, phrase.after table)

/-- A clause comes out as the meaning of its compilation says. -/
theorem Denotes.runOn_clause {compile : Compile α}
    {meaning : Settings → Except CompileError (Phrase α)} (denotes : compile.Denotes meaning)
    (clause : Clause) (layOut : α → String) (table : Placeholders) :
    (transaction (do let a ← compile; limitLength clause (layOut a))).runOn table =
      clauseOutcome clause layOut table (meaning table.settings) := by
  have ran := denotes table
  cases means : meaning table.settings with
  | error refusal =>
    rw [means] at ran
    exact runOn_transaction_error (runOn_bind_error ran)
  | ok phrase =>
    rw [means] at ran
    have limited : (do let a ← compile; limitLength clause (layOut a)).runOn table = _ :=
      (runOn_bind_ok ran).trans (runOn_limitLength clause _ _)
    rw [phrase.settings_after] at limited
    show _ = if table.settings.maxBytes < (layOut (phrase.written table)).utf8ByteSize then _
      else _
    by_cases long :
        table.settings.maxBytes < (layOut (phrase.written table)).utf8ByteSize
    · -- The placeholders of a text that is too long are given up with it.
      rw [if_pos long] at limited
      rw [if_pos long]
      exact runOn_transaction_error (congrArg Prod.fst limited)
    · rw [if_neg long] at limited
      rw [if_neg long]
      exact runOn_transaction_ok limited

section Outcome

variable {clause : Clause} {layOut : α → String} {table after : Placeholders}
  {meaning : Except CompileError (Phrase α)}

/-- A clause that is accepted has written its phrase and kept what that registers. -/
theorem clauseOutcome_eq_ok {text : String}
    (accepted : clauseOutcome clause layOut table meaning = (.ok text, after)) :
    ∃ phrase, meaning = .ok phrase ∧ text = layOut (phrase.written table) ∧
      after = phrase.after table := by
  cases meaning with
  | error refusal => cases accepted
  | ok phrase =>
    rw [clauseOutcome] at accepted
    split at accepted
    · cases accepted
    · cases accepted
      exact ⟨phrase, rfl, rfl, rfl⟩

/-- The text of a clause that is accepted is no longer than the settings allow. -/
theorem fits_of_clauseOutcome_eq_ok {text : String}
    (accepted : clauseOutcome clause layOut table meaning = (.ok text, after)) :
    text.utf8ByteSize ≤ table.settings.maxBytes := by
  cases meaning with
  | error refusal => cases accepted
  | ok phrase =>
    rw [clauseOutcome] at accepted
    split at accepted
    · cases accepted
    · next fits =>
      cases accepted
      exact Nat.le_of_not_lt fits

/-- A clause whose meaning is a phrase is accepted if its text is short enough. -/
theorem clauseOutcome_of_fits {phrase : Phrase α}
    (fits : (layOut (phrase.written table)).utf8ByteSize ≤ table.settings.maxBytes) :
    clauseOutcome clause layOut table (.ok phrase) =
      (.ok (layOut (phrase.written table)), phrase.after table) := by
  rw [clauseOutcome, if_neg (Nat.not_lt_of_le fits)]

/-- A clause whose meaning is a phrase can only be refused for the length of its text. -/
theorem clauseOutcome_of_not_fits {phrase : Phrase α}
    (long : ¬(layOut (phrase.written table)).utf8ByteSize ≤ table.settings.maxBytes) :
    clauseOutcome clause layOut table (.ok phrase) =
      (.error (.tooLong clause (layOut (phrase.written table)).utf8ByteSize
        table.settings.maxBytes), table) := by
  rw [clauseOutcome, if_pos (Nat.lt_of_not_le long)]

/-- A clause that is refused leaves the table as it was. -/
theorem clauseOutcome_eq_error {refusal : CompileError}
    (refused : clauseOutcome clause layOut table meaning = (.error refusal, after)) :
    after = table := by
  cases meaning with
  | error refusal' =>
    cases refused
    rfl
  | ok phrase =>
    rw [clauseOutcome] at refused
    split at refused
    · cases refused
      rfl
    · cases refused

end Outcome

end Compile

end ItemExpr
