import ItemExpr.Proofs.Update.Targets

/-! # What becomes of an update

`Update.ComesTo` says without the compiler what an update comes to on a table. An update without
actions is refused for that, and one that has a target twice for the first target that was there
before, whatever else is wrong with it. Otherwise the first action that is not sound decides: its
literal is looked at first, its target next and what it refers to last. Only then the length of the
text matters. The compiler agrees with this in every case (`Update.compile_outcome_exact`).

What an action is refused for is an inversion of how it is read (`Update.Action.read_eq_error_iff`);
a list of actions is refused for its first action that is refused, behind sound ones
(`Update.readAll_eq_error_iff`). -/

namespace ItemExpr.Update

open Compile

/-! ### Literals -/

/-- The types of the literals that an action takes. -/
def Action.literalTypes : Action → List AttributeType
  | .set _ | .remove => AttributeType.all
  | .add _ | .subtract _ => [.number]
  | .append _ | .prepend _ => [.list]
  | .addToSet _ => [.stringSet, .numberSet, .binarySet, .number]
  | .deleteFromSet _ => [.stringSet, .numberSet, .binarySet]

/-- Whether an action **takes** a literal. -/
def Action.Takes (action : Action) (literal : AttributeValue) : Prop :=
  literal.type ∈ action.literalTypes

instance (action : Action) (literal : AttributeValue) : Decidable (action.Takes literal) :=
  inferInstanceAs (Decidable (literal.type ∈ action.literalTypes))

/-- An action takes the literals that its kind of literal admits. -/
theorem Action.takes_iff {action : Action} {literal : AttributeValue} :
    action.Takes literal ↔
      ∀ kind, action.literalKind? = some kind → kind.admits literal = true := by
  rw [Takes]
  cases action with
  | set | remove => exact iff_of_true (AttributeType.mem_all _) nofun
  | _ =>
    simp only [literalTypes, literalKind?, Option.some.injEq, forall_eq', LiteralKind.admits,
      AttributeValue.isSet]
    cases literal.type <;> decide

/-- An action does not take the literals that its kind of literal does not admit. -/
theorem Action.not_takes_iff {action : Action} {literal : AttributeValue} :
    ¬action.Takes literal ↔
      ∃ kind, action.literalKind? = some kind ∧ ¬kind.admits literal = true := by
  rw [takes_iff]
  push Not
  exact Iff.rfl

/-- An action has a defect of its literal exactly if it has a literal that it does not take. -/
theorem Action.literalDefect?_eq_some_iff {action : Action} {defect : Defect} :
    action.literalDefect? = some defect ↔
      ∃ kind literal, action.literalKind? = some kind ∧ action.operand? = some (.value literal) ∧
        ¬action.Takes literal ∧ defect = .literalKind kind literal.type := by
  rw [literalDefect?]
  constructor
  · intro found
    split at found
    · next kind literal kinds operand =>
      split at found
      · cases found
      · next refused =>
        exact ⟨kind, literal, kinds, operand, not_takes_iff.2 ⟨kind, kinds, refused⟩,
          (Option.some.inj found).symm⟩
    · cases found
  · rintro ⟨kind, literal, kinds, operand, wrong, rfl⟩
    obtain ⟨kind', kinds', refused⟩ := not_takes_iff.1 wrong
    rw [kinds] at kinds'
    cases kinds'
    rw [kinds, operand]
    exact if_neg refused

/-! ### Single actions -/

/-- Whether an action on the attribute of a path is **sound**. -/
structure Action.IsSound (path : String) (action : Action) : Prop where
  /-- It takes its literal. -/
  taken : ∀ literal, action.operand? = some (.value literal) → action.Takes literal
  /-- Its target is a path. -/
  target : ∃ target, Path.parse path = .ok target
  /-- What it refers to is a path. -/
  reference : ∀ text fallback, action.operand? = some (.reference text fallback) →
    ∃ reference, Path.parse text = .ok reference

/-- Whether an action on the attribute of a path **is refused** for something. -/
inductive Action.IsRefused (path : String) (action : Action) : CompileError → Prop
  /-- It does not take its literal. -/
  | literal {kind : LiteralKind} {literal : AttributeValue}
      (kinds : action.literalKind? = some kind) (operand : action.operand? = some (.value literal))
      (wrong : ¬action.Takes literal) :
      IsRefused path action (.malformed path (.literalKind kind literal.type))
  /-- It takes its literal, but its target is no path. -/
  | target {defect : Path.Defect}
      (taken : ∀ literal, action.operand? = some (.value literal) → action.Takes literal)
      (refused : Path.parse path = .error defect) :
      IsRefused path action (.malformed path (.path defect))
  /-- Its target is a path, but what it refers to is none. -/
  | reference {text : String} {fallback : Option AttributeValue} {target : Path}
      {defect : Path.Defect} (operand : action.operand? = some (.reference text fallback))
      (parses : Path.parse path = .ok target) (refused : Path.parse text = .error defect) :
      IsRefused path action (.malformed text (.path defect))

section Single

variable {path : String} {action : Action} {refusal : CompileError}

/-- A sound action is refused for nothing. -/
theorem Action.IsSound.not_isRefused (sound : action.IsSound path) :
    ¬action.IsRefused path refusal := by
  intro refused
  cases refused with
  | literal kinds operand wrong => exact wrong (sound.taken _ operand)
  | target taken refused =>
    obtain ⟨target, parses⟩ := sound.target
    rw [refused] at parses
    cases parses
  | reference operand parses refused =>
    obtain ⟨reference, parses'⟩ := sound.reference _ _ operand
    rw [refused] at parses'
    cases parses'

/-- An action that is refused for nothing is sound. -/
theorem Action.isSound_of_not_isRefused (none : ∀ refusal, ¬action.IsRefused path refusal) :
    action.IsSound path := by
  have taken : ∀ literal, action.operand? = some (.value literal) → action.Takes literal := by
    intro literal operand
    by_contra wrong
    obtain ⟨kind, kinds, _⟩ := not_takes_iff.1 wrong
    exact none _ (.literal kinds operand wrong)
  cases parses : Path.parse path with
  | error defect => exact absurd (.target taken parses) (none _)
  | ok target =>
    refine ⟨taken, ⟨target, parses⟩, fun text fallback operand => ?_⟩
    cases parses' : Path.parse text with
    | error defect => exact absurd (.reference operand parses parses') (none _)
    | ok reference => exact ⟨reference, rfl⟩

/-- What an operand is refused for is that it refers to what is no path. -/
theorem Operand.read_eq_error_iff {operand : Operand} :
    operand.read = .error refusal ↔ ∃ text fallback defect, operand = .reference text fallback ∧
      Path.parse text = .error defect ∧ refusal = .malformed text (.path defect) := by
  cases operand with
  | value literal => exact iff_of_false nofun nofun
  | reference text fallback =>
    rw [read, bind_eq_error_iff, Path.read_eq_error_iff]
    constructor
    · rintro (⟨defect, refused, same⟩ | ⟨_, _, ⟨⟩⟩)
      exact ⟨text, fallback, defect, rfl, refused, same⟩
    · rintro ⟨_, _, defect, same, refused, same'⟩
      cases same
      exact Or.inl ⟨defect, refused, same'⟩

/-- On a target that is a path, an action is refused for its operand. -/
theorem Action.readOn_eq_error_iff {target : Path} :
    action.readOn target = .error refusal ↔
      ∃ operand, action.operand? = some operand ∧ operand.read = .error refusal := by
  cases action with
  | remove => exact iff_of_false nofun nofun
  | _ operand =>
    refine bind_eq_error_iff.trans ⟨?_, ?_⟩
    · rintro (refused | ⟨_, _, ⟨⟩⟩)
      exact ⟨operand, rfl, refused⟩
    · rintro ⟨_, ⟨⟩, refused⟩
      exact Or.inl refused

/-- **An action is refused for its literal, its target and its reference, in this order.** -/
theorem Action.read_eq_error_iff :
    action.read path = .error refusal ↔ action.IsRefused path refusal := by
  rw [read]
  cases found : action.literalDefect? with
  | some defect =>
    obtain ⟨kind, literal, kinds, operand, wrong, rfl⟩ := literalDefect?_eq_some_iff.1 found
    -- With such a literal an action is refused for nothing else, since it refers to nothing.
    constructor
    · rintro ⟨⟩
      exact .literal kinds operand wrong
    · intro refused
      cases refused with
      | literal kinds' operand' wrong' =>
        rw [kinds] at kinds'
        rw [operand] at operand'
        cases kinds'
        cases operand'
        rfl
      | target taken _ => exact absurd (taken literal operand) wrong
      | reference operand' _ _ =>
        rw [operand] at operand'
        cases operand'
  | none =>
    have taken : ∀ literal, action.operand? = some (.value literal) → action.Takes literal := by
      intro literal operand
      by_contra wrong
      obtain ⟨kind, kinds, _⟩ := not_takes_iff.1 wrong
      have defective := literalDefect?_eq_some_iff.2 ⟨kind, literal, kinds, operand, wrong, rfl⟩
      rw [found] at defective
      cases defective
    refine bind_eq_error_iff.trans ⟨?_, ?_⟩
    · rintro (unread | ⟨target, reads, unread⟩)
      · obtain ⟨defect, refused, rfl⟩ := Path.read_eq_error_iff.1 unread
        exact .target taken refused
      · obtain ⟨operand, has, unread⟩ := readOn_eq_error_iff.1 unread
        obtain ⟨text, fallback, defect, rfl, refused, rfl⟩ := Operand.read_eq_error_iff.1 unread
        exact .reference has (Path.read_eq_ok_iff.1 reads) refused
    · intro refused
      cases refused with
      | literal _ operand wrong => exact absurd (taken _ operand) wrong
      | target _ refused => exact Or.inl (Path.read_eq_error_iff.2 ⟨_, refused, rfl⟩)
      | reference operand parses refused =>
        refine Or.inr ⟨_, Path.read_eq_ok_iff.2 parses, readOn_eq_error_iff.2 ⟨_, operand, ?_⟩⟩
        exact Operand.read_eq_error_iff.2 ⟨_, _, _, rfl, refused, rfl⟩

/-- An action is sound exactly if it says a change. -/
theorem Action.isSound_iff :
    action.IsSound path ↔ ∃ change, action.read path = .ok change := by
  constructor
  · intro sound
    cases reads : action.read path with
    | ok change => exact ⟨change, rfl⟩
    | error refusal => exact absurd (read_eq_error_iff.1 reads) sound.not_isRefused
  · rintro ⟨change, reads⟩
    refine isSound_of_not_isRefused fun refusal refused => ?_
    rw [read_eq_error_iff.2 refused] at reads
    cases reads

end Single

/-! ### Lists of actions -/

/-- A target is the first one that is repeated exactly if it is among those before it or was seen
before, and those before it are not. -/
theorem firstRepeated?_eq_some_iff {seen paths : List String} {path : String} :
    firstRepeated? seen paths = some path ↔ ∃ before behind, paths = before ++ path :: behind ∧
      before.Nodup ∧ (∀ other ∈ before, other ∉ seen) ∧ (path ∈ before ∨ path ∈ seen) := by
  induction paths generalizing seen with
  | nil =>
    constructor
    · rintro ⟨⟩
    · simp
  | cons first paths ih =>
    rw [firstRepeated?]
    by_cases known : first ∈ seen
    · rw [if_pos known]
      constructor
      · rintro ⟨⟩
        exact ⟨[], paths, rfl, List.nodup_nil, List.forall_mem_nil _, Or.inr known⟩
      · rintro ⟨before, behind, split, _, fresh, _⟩
        cases before with
        | nil =>
          cases split
          rfl
        | cons other before =>
          cases split
          exact absurd known (fresh first List.mem_cons_self)
    · rw [if_neg known, ih]
      constructor
      · rintro ⟨before, behind, rfl, once, fresh, again⟩
        have alone : first ∉ before := fun mem => fresh first mem List.mem_cons_self
        refine ⟨first :: before, behind, rfl, List.nodup_cons.2 ⟨alone, once⟩, ?_, ?_⟩
        · exact List.forall_mem_cons.2
            ⟨known, fun other mem mem' => fresh other mem (List.mem_cons_of_mem first mem')⟩
        · rw [List.mem_cons] at again ⊢
          tauto
      · rintro ⟨before, behind, split, once, fresh, again⟩
        cases before with
        | nil =>
          cases split
          simp [known] at again
        | cons other before =>
          cases split
          rw [List.nodup_cons] at once
          rw [List.forall_mem_cons] at fresh
          refine ⟨before, behind, rfl, once.2, fun other mem => ?_, ?_⟩
          · rw [List.mem_cons, not_or]
            exact ⟨fun same => once.1 (same ▸ mem), fresh.2 other mem⟩
          · rw [List.mem_cons] at again ⊢
            tauto

/-- **Some actions are refused for the first of them that is not sound.** -/
theorem readAll_eq_error_iff {update : Update} {refusal : CompileError} :
    update.readAll = .error refusal ↔ ∃ before path action behind,
      update = before ++ (path, action) :: behind ∧
        (∀ entry ∈ before, entry.2.IsSound entry.1) ∧ action.IsRefused path refusal := by
  induction update with
  | nil =>
    constructor
    · rintro ⟨⟩
    · simp
  | cons entry rest ih =>
    obtain ⟨first, action⟩ := entry
    rw [readAll, cons_eq_error_iff, Action.read_eq_error_iff]
    constructor
    -- Either the first action is refused, or it is sound and the refused one is behind it.
    · rintro (refused | ⟨change, reads, unread⟩)
      · exact ⟨[], first, action, rest, rfl, List.forall_mem_nil _, refused⟩
      · obtain ⟨before, path, other, behind, rfl, sound, refused⟩ := ih.1 unread
        refine ⟨(first, action) :: before, path, other, behind, rfl, ?_, refused⟩
        exact List.forall_mem_cons.2 ⟨Action.isSound_iff.2 ⟨change, reads⟩, sound⟩
    · rintro ⟨before, path, other, behind, split, sound, refused⟩
      cases before with
      | nil =>
        cases split
        exact Or.inl refused
      | cons entry before =>
        cases split
        rw [List.forall_mem_cons] at sound
        obtain ⟨change, reads⟩ := Action.isSound_iff.1 sound.1
        refine Or.inr ⟨change, reads, ih.2 ?_⟩
        exact ⟨before, path, other, behind, rfl, sound.2, refused⟩

/-- Some actions say changes exactly if all of them are sound. -/
theorem exists_readAll_iff {update : Update} :
    (∃ changes, update.readAll = .ok changes) ↔
      ∀ entry ∈ update, entry.2.IsSound entry.1 := by
  induction update with
  | nil => exact iff_of_true ⟨[], rfl⟩ nofun
  | cons entry rest ih =>
    rw [List.forall_mem_cons, ← ih, Action.isSound_iff]
    constructor
    · rintro ⟨changes, reads⟩
      obtain ⟨change, others, first, behind, _⟩ := cons_eq_ok_iff.1 reads
      exact ⟨⟨change, first⟩, others, behind⟩
    · rintro ⟨⟨change, first⟩, others, behind⟩
      exact ⟨_, cons_eq_ok_iff.2 ⟨change, others, first, behind, rfl⟩⟩

/-! ### Updates -/

/-- Whether an update is **well-formed**. -/
structure WellFormed (update : Update) : Prop where
  /-- It has actions. -/
  nonempty : update ≠ []
  /-- No two of them have one target. -/
  once : (update.map Prod.fst).Nodup
  /-- Each of them is sound. -/
  sound : ∀ entry ∈ update, entry.2.IsSound entry.1

/-- Whether an update **is written as** a text on a table, before the length of the text is looked
at. -/
def IsWrittenAs (update : Update) (table : Placeholders) (text : String) : Prop :=
  ∃ entries after, update.entries.runOn table = (.ok entries, after) ∧ text = partsText entries

/-- **What an update comes to** on a table. -/
inductive ComesTo (table : Placeholders) (update : Update) : Except CompileError String → Prop
  /-- It has no actions. -/
  | empty (none : update = []) : ComesTo table update (.error .emptyUpdate)
  /-- It has a target again that it had before, and that is the first such target. -/
  | repeated {before behind : List String} {path : String}
      (targets : update.map Prod.fst = before ++ path :: behind) (once : before.Nodup)
      (again : path ∈ before) : ComesTo table update (.error (.malformed path .repeatedTarget))
  /-- It has each target once, but an action, behind sound ones, is refused for something. -/
  | refused {before behind : Update} {path : String} {action : Action} {refusal : CompileError}
      (once : (update.map Prod.fst).Nodup) (split : update = before ++ (path, action) :: behind)
      (sound : ∀ entry ∈ before, entry.2.IsSound entry.1)
      (refused : action.IsRefused path refusal) : ComesTo table update (.error refusal)
  /-- It is well-formed, but its text is longer than the settings allow. -/
  | tooLong {text : String} (wellFormed : update.WellFormed)
      (written : update.IsWrittenAs table text)
      (long : table.settings.maxBytes < text.utf8ByteSize) :
      ComesTo table update
        (.error (.tooLong .update text.utf8ByteSize table.settings.maxBytes))
  /-- It is well-formed, and its text is short enough. -/
  | text {text : String} (wellFormed : update.WellFormed)
      (written : update.IsWrittenAs table text)
      (fits : text.utf8ByteSize ≤ table.settings.maxBytes) : ComesTo table update (.ok text)

section Outcome

variable {update : Update} {table : Placeholders} {text : String}

/-- An update is well-formed exactly if it says changes. -/
theorem wellFormed_iff : update.WellFormed ↔ ∃ changes, update.read = .ok changes := by
  rw [read]
  constructor
  · rintro ⟨nonempty, once, sound⟩
    have fresh := firstRepeated?_eq_none_iff.2 ⟨once, fun path _ => List.not_mem_nil⟩
    rw [if_neg fun empty => nonempty (List.isEmpty_iff.1 empty), fresh]
    exact exists_readAll_iff.2 sound
  · rintro ⟨changes, reads⟩
    have once : (update.map Prod.fst).Nodup := nodup_of_read reads
    have sound := exists_readAll_iff.1 ⟨changes, readAll_of_read reads⟩
    refine ⟨?_, once, sound⟩
    rintro rfl
    cases reads

/-- An update is written as the changes that its actions say, by parts. -/
theorem isWrittenAs_iff : update.IsWrittenAs table text ↔
    ∃ changes, update.readAll = .ok changes ∧
      text = partsText ((Change.phraseAll changes).written table) := by
  have settles : Settles table (update.entries.runOn table)
      (update.readAll.map Change.phraseAll) := update.entries_denotes table
  rw [IsWrittenAs]
  cases reads : update.readAll with
  | error refusal =>
    rw [reads] at settles
    have refused : (update.entries.runOn table).1 = .error refusal := settles
    refine iff_of_false ?_ nofun
    rintro ⟨entries, after, ran, _⟩
    rw [ran] at refused
    cases refused
  | ok changes =>
    rw [reads] at settles
    have wrote : update.entries.runOn table = (.ok ((Change.phraseAll changes).written table),
      (Change.phraseAll changes).after table) := settles
    rw [wrote]
    constructor
    · rintro ⟨_, _, ⟨⟩, same⟩
      exact ⟨changes, rfl, same⟩
    · rintro ⟨_, ⟨⟩, same⟩
      exact ⟨_, _, rfl, same⟩

/-- A well-formed update comes out as what it is written as, if that is not too long. -/
theorem runOn_compile_of_wellFormed (wellFormed : update.WellFormed)
    (written : update.IsWrittenAs table text) :
    (update.compile.runOn table).1 =
      if table.settings.maxBytes < text.utf8ByteSize then
        .error (.tooLong .update text.utf8ByteSize table.settings.maxBytes)
      else .ok text := by
  obtain ⟨changes, reads⟩ := wellFormed_iff.1 wellFormed
  obtain ⟨changes', reads', rfl⟩ := isWrittenAs_iff.1 written
  cases (readAll_of_read reads).symm.trans reads'
  rw [runOn_compile, reads]
  show (clauseOutcome _ _ _ (.ok _)).1 = _
  rw [clauseOutcome]
  split <;> rfl

/-- An update that comes out as a text is well-formed. -/
theorem wellFormed_of_runOn_compile {after : Placeholders}
    (compiled : update.compile.runOn table = (.ok text, after)) : update.WellFormed := by
  rw [runOn_compile] at compiled
  obtain ⟨_, means, _⟩ := clauseOutcome_eq_ok compiled
  obtain ⟨changes, reads, _⟩ := map_eq_ok_iff.1 means
  exact wellFormed_iff.2 ⟨changes, reads⟩

/-- A well-formed update is written as something. -/
theorem WellFormed.exists_isWrittenAs (wellFormed : update.WellFormed) (table : Placeholders) :
    ∃ text, update.IsWrittenAs table text := by
  obtain ⟨changes, reads⟩ := exists_readAll_iff.2 wellFormed.sound
  exact ⟨_, isWrittenAs_iff.2 ⟨changes, reads, rfl⟩⟩

/-- An update that cannot be read comes out as the reason for that. -/
theorem runOn_compile_of_read {refusal : CompileError} (unread : update.read = .error refusal) :
    (update.compile.runOn table).1 = .error refusal := by
  rw [runOn_compile, unread]
  rfl

/-- The compiler gives what an update comes to. -/
theorem ComesTo.outcome_eq {outcome : Except CompileError String}
    (comes : update.ComesTo table outcome) : (update.compile.runOn table).1 = outcome := by
  cases comes with
  | empty none =>
    subst none
    rfl
  | @repeated before behind path targets once again =>
    refine runOn_compile_of_read ?_
    have nonempty : ¬update.isEmpty = true := by
      intro empty
      rw [List.isEmpty_iff.1 empty] at targets
      simp at targets
    have first := firstRepeated?_eq_some_iff.2
      ⟨before, behind, targets, once, fun other _ => List.not_mem_nil, Or.inl again⟩
    rw [read, if_neg nonempty, first]
  | @refused before behind path action refusal once split sound refused =>
    refine runOn_compile_of_read ?_
    have nonempty : ¬update.isEmpty = true := by simp [split]
    have fresh := firstRepeated?_eq_none_iff.2 ⟨once, fun path _ => List.not_mem_nil⟩
    rw [read, if_neg nonempty, fresh]
    exact readAll_eq_error_iff.2 ⟨before, path, action, behind, split, sound, refused⟩
  | tooLong wellFormed written long =>
    rw [runOn_compile_of_wellFormed wellFormed written, if_pos long]
  | text wellFormed written fits =>
    rw [runOn_compile_of_wellFormed wellFormed written, if_neg (Nat.not_lt_of_le fits)]

/-- An update that cannot be read comes to the reason for that. -/
theorem comesTo_of_read {refusal : CompileError} (unread : update.read = .error refusal) :
    update.ComesTo table (.error refusal) := by
  rw [read] at unread
  split at unread
  · next empty =>
    cases unread
    exact .empty (List.isEmpty_iff.1 empty)
  · split at unread
    · next path found =>
      cases unread
      obtain ⟨before, behind, targets, once, _, again⟩ := firstRepeated?_eq_some_iff.1 found
      exact .repeated targets once (again.resolve_right List.not_mem_nil)
    · next fresh =>
      obtain ⟨before, path, action, behind, split, sound, refused⟩ :=
        readAll_eq_error_iff.1 unread
      exact .refused (firstRepeated?_eq_none_iff.1 fresh).1 split sound refused

/-- Every update comes to something. -/
theorem exists_comesTo (update : Update) (table : Placeholders) :
    ∃ outcome, update.ComesTo table outcome := by
  cases reads : update.read with
  | error refusal => exact ⟨_, comesTo_of_read reads⟩
  | ok changes =>
    have wellFormed := wellFormed_iff.2 ⟨changes, reads⟩
    obtain ⟨text, written⟩ := wellFormed.exists_isWrittenAs table
    rcases Nat.lt_or_ge table.settings.maxBytes text.utf8ByteSize with long | fits
    · exact ⟨_, .tooLong wellFormed written long⟩
    · exact ⟨_, .text wellFormed written fits⟩

end Outcome

/-- **What becomes of an update is exact**: the compiler gives what the update comes to, and nothing
else. So it says that an update has no actions exactly if it has none; and a well-formed update has
a text, comes out as that exactly if it is short enough, and is refused for its length exactly if it
is not. -/
theorem compile_outcome_exact (update : Update) (table : Placeholders) :
    (∀ outcome, (update.compile.runOn table).1 = outcome ↔ update.ComesTo table outcome) ∧
    ((update.compile.runOn table).1 = .error .emptyUpdate ↔ update = []) ∧
    (update.WellFormed → ∃ text, update.IsWrittenAs table text ∧
      ((update.compile.runOn table).1 = .ok text ↔
        text.utf8ByteSize ≤ table.settings.maxBytes) ∧
      ((update.compile.runOn table).1 =
          .error (.tooLong .update text.utf8ByteSize table.settings.maxBytes) ↔
        table.settings.maxBytes < text.utf8ByteSize)) := by
  have agrees : ∀ outcome,
      (update.compile.runOn table).1 = outcome ↔ update.ComesTo table outcome := by
    intro outcome
    constructor
    · rintro rfl
      obtain ⟨outcome, comes⟩ := update.exists_comesTo table
      rw [comes.outcome_eq]
      exact comes
    · exact ComesTo.outcome_eq
  refine ⟨agrees, ?_, ?_⟩
  · rw [agrees]
    constructor
    · intro comes
      cases comes with
      | empty none => exact none
      | refused _ _ _ refused => cases refused
    · exact .empty
  · intro wellFormed
    obtain ⟨text, written⟩ := wellFormed.exists_isWrittenAs table
    refine ⟨text, written, ?_⟩
    rw [runOn_compile_of_wellFormed wellFormed written]
    split
    · next long => exact ⟨iff_of_false nofun (Nat.not_le_of_lt long), iff_of_true rfl long⟩
    · next fits =>
      exact ⟨iff_of_true rfl (Nat.le_of_not_lt fits), iff_of_false nofun fits⟩

/-- Updates with several defects. A target that is there twice is found before the literal of the
wrong kind in front of it; such a literal is found before its target, which is no path; a target is
found before the reference, which is none either. An update without defects comes out if its text is
just short enough, and is refused for its length if it is one byte too long. -/
theorem compile_outcome_exact_several_defects :
    ComesTo (Placeholders.empty {})
      [("a", .add (.value (.string "x"))), ("b..c", .remove), ("a", .remove), ("b..c", .remove)]
      (.error (.malformed "a" .repeatedTarget)) ∧
    ComesTo (Placeholders.empty {})
      [("a", .remove), ("b..c", .append (.value (.string "x"))), ("d", .add (.value (.string "x")))]
      (.error (.malformed "b..c" (.literalKind .list .string))) ∧
    ComesTo (Placeholders.empty {})
      [("b..c", .set (.reference "d[" (some (.string "x"))))]
      (.error (.malformed "b..c" (.path .nameless))) ∧
    ComesTo (Placeholders.empty { maxBytes := 16 }) [("a", .add (.reference "b" none))]
      (.ok "SET #a = #a + #b") ∧
    WellFormed [("a", .add (.reference "b" none))] ∧
    ∃ text, IsWrittenAs [("a", .add (.reference "b" none))] (Placeholders.empty { maxBytes := 15 })
        text ∧
      ((compile [("a", .add (.reference "b" none))]).runOn
          (Placeholders.empty { maxBytes := 15 })).1 =
        .error (.tooLong .update text.utf8ByteSize 15) := by
  have fitting : ComesTo (Placeholders.empty { maxBytes := 16 })
      [("a", .add (.reference "b" none))] (.ok "SET #a = #a + #b") :=
    ((compile_outcome_exact _ _).1 _).1 (by decide +kernel)
  have wellFormed : WellFormed [("a", .add (.reference "b" none))] := by
    cases fitting with
    | text wellFormed _ _ => exact wellFormed
  refine ⟨?_, ?_, ?_, fitting, wellFormed, ?_⟩
  · exact ((compile_outcome_exact _ _).1 _).1 (by decide +kernel)
  · exact ((compile_outcome_exact _ _).1 _).1 (by decide +kernel)
  · exact ((compile_outcome_exact _ _).1 _).1 (by decide +kernel)
  · obtain ⟨text, written, accepted, refused⟩ :=
      (compile_outcome_exact _ (Placeholders.empty { maxBytes := 15 })).2.2 wellFormed
    refine ⟨text, written, refused.2 (Nat.lt_of_not_le fun fits => ?_)⟩
    have ran : ((compile [("a", .add (.reference "b" none))]).runOn
        (Placeholders.empty { maxBytes := 15 })).1 = .error (.tooLong .update 16 15) := by
      decide +kernel
    rw [accepted.2 fits] at ran
    cases ran

end ItemExpr.Update
