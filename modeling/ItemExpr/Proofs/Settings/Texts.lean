import ItemExpr.Proofs.Path.Grammar
import ItemExpr.Proofs.Placeholders.Run

/-! # Settings from texts

Each setting is read from a text of its own, which may be missing, and a text that does not give
what it should counts as if it were missing (`IsTaken`). So whatever the texts are, the stem is fit
to begin placeholders and both limits are positive; and in every run on a table with such settings,
the placeholder of a value can be told from all the others (`ofTexts_makes_legible_placeholders`). -/

namespace ItemExpr.Settings

/-! ### What texts give -/

/-- Whether a text can be a **stem**: a colon and word characters, possibly none. -/
def IsStem (text : String) : Prop :=
  ∃ word : List Char, text.toList = ':' :: word ∧ ∀ c ∈ word, isWordChar c = true

/-- Whether a text **gives** a stem, namely itself. -/
def GivesStem (text stem : String) : Prop := IsStem text ∧ stem = text

/-- Whether a text **gives** a limit: a positive number that fits in 64 bits, as its digits behind
any number of zeros, and with a plus sign in front of these or not. -/
def GivesLimit (text : String) (limit : Nat) : Prop :=
  0 < limit ∧ limit < Number.wordBound ∧
    ∃ sign zeros, (sign = [] ∨ sign = ['+']) ∧
      text.toList = sign ++ (List.replicate zeros '0' ++ Number.digitsOf limit)

/-- Whether a setting is **taken** from a text that may be missing: it is what the text gives or,
without a text that gives something, the default. -/
inductive IsTaken {α : Type} (gives : String → α → Prop) (default : α) :
    Option String → α → Prop where
  /-- There is a text, and it gives the setting. -/
  | given {text : String} {setting : α} (given : gives text setting) :
    IsTaken gives default (some text) setting
  /-- There is a text, but it gives nothing. -/
  | unfit {text : String} (unfit : ∀ setting, ¬ gives text setting) :
    IsTaken gives default (some text) default
  /-- There is no text. -/
  | missing : IsTaken gives default none default

/-! ### How they are read -/

/-- A stem is recognised. -/
theorem isStem_iff {text : String} : isStem text = true ↔ IsStem text := by
  rw [isStem, IsStem]
  constructor
  · intro stem
    split at stem
    · next word chars => exact ⟨word, chars, List.all_eq_true.1 stem⟩
    · cases stem
  · rintro ⟨word, chars, all⟩
    rw [chars]
    exact List.all_eq_true.2 all

/-- The characters behind a plus sign, or all of them if they do not begin with one. -/
def unsigned : List Char → List Char
  | '+' :: digits => digits
  | digits => digits

/-- A numeral is what stands behind a plus sign or by itself. -/
theorem isNumeral_unsigned_iff {cs : List Char} {n : Nat} :
    Text.IsNumeral (unsigned cs) n ↔
      ∃ sign digits, (sign = [] ∨ sign = ['+']) ∧ cs = sign ++ digits ∧
        Text.IsNumeral digits n := by
  constructor
  · intro numeral
    unfold unsigned at numeral
    split at numeral
    · next digits => exact ⟨['+'], digits, Or.inr rfl, rfl, numeral⟩
    · exact ⟨[], cs, Or.inl rfl, rfl, numeral⟩
  · rintro ⟨sign, digits, signed, rfl, numeral⟩
    have behind : unsigned (sign ++ digits) = digits := by
      rcases signed with rfl | rfl
      · -- A numeral does not begin with a plus sign, which is no digit.
        rw [List.nil_append]
        unfold unsigned
        split
        · next rest => cases numeral.2.1 '+' List.mem_cons_self
        · rfl
      · rfl
    rw [behind]
    exact numeral

/-- Behind the sign, a natural is read as an index of a path is. -/
theorem natural?_eq_some_iff {text : String} {n : Nat} :
    natural? text = some n ↔ Path.position (unsigned text.toList) = .ok n := by
  show (if (unsigned text.toList).isEmpty || !(unsigned text.toList).all Char.isDigit then none
    else if Text.ofDigits (unsigned text.toList) < Number.wordBound then
      some (Text.ofDigits (unsigned text.toList))
    else none) = some n ↔ _
  unfold Path.position
  split
  · exact iff_of_false nofun nofun
  · split
    · rw [Option.some.injEq, Except.ok.injEq]
    · exact iff_of_false nofun nofun

/-- A text is read as a limit exactly if it gives it. -/
theorem limit?_eq_some_iff {text : String} {limit : Nat} :
    limit? text = some limit ↔ GivesLimit text limit := by
  rw [limit?, Option.filter_eq_some_iff, natural?_eq_some_iff, Path.position_eq_ok_iff,
    ← Text.isNumeral_iff, isNumeral_unsigned_iff, decide_eq_true_eq, GivesLimit]
  simp only [Text.isNumeral_iff]
  constructor
  · rintro ⟨⟨small, sign, _, signed, chars, zeros, rfl⟩, positive⟩
    exact ⟨positive, small, sign, zeros, signed, chars⟩
  · rintro ⟨positive, small, sign, zeros, signed, chars⟩
    exact ⟨⟨small, sign, _, signed, chars, zeros, rfl⟩, positive⟩

/-- A setting is taken if texts are read as what they give. -/
theorem isTaken_iff {α : Type} {read : String → Option α} {gives : String → α → Prop}
    {default : α} (reads : ∀ {text setting}, read text = some setting ↔ gives text setting)
    {text? : Option String} {setting : α} :
    IsTaken gives default text? setting ↔ setting = (text?.bind read).getD default := by
  cases text? with
  | none =>
    constructor
    · rintro ⟨⟩
      rfl
    · rintro rfl
      exact .missing
  | some text =>
    rw [Option.bind_some]
    cases found : read text with
    | none =>
      have unfit : ∀ setting, ¬ gives text setting := by
        intro setting given
        rw [← reads, found] at given
        cases given
      constructor
      · rintro (given | _)
        · exact absurd given (unfit setting)
        · rfl
      · rintro rfl
        exact .unfit unfit
    | some given =>
      constructor
      · rintro (given' | unfit)
        · rw [← reads, found] at given'
          exact (Option.some.inj given').symm
        · exact absurd (reads.1 found) (unfit given)
      · rintro rfl
        exact .given (reads.1 found)

/-- A setting that is taken is like all that texts give, if the default is. -/
theorem IsTaken.property {α : Type} {gives : String → α → Prop} {default : α} {holds : α → Prop}
    (given : ∀ text setting, gives text setting → holds setting) (otherwise : holds default)
    {text? : Option String} {setting : α} (taken : IsTaken gives default text? setting) :
    holds setting := by
  cases taken with
  | given gave => exact given _ _ gave
  | unfit => exact otherwise
  | missing => exact otherwise

/-- The stem is taken from its text, and so is each of the limits. -/
theorem eq_ofTexts_iff {stem maxBytes maxCandidates : Option String} {settings : Settings} :
    settings = ofTexts stem maxBytes maxCandidates ↔
      IsTaken GivesStem ":v" stem settings.stem ∧
      IsTaken GivesLimit 4096 maxBytes settings.maxBytes ∧
      IsTaken GivesLimit 100 maxCandidates settings.maxCandidates := by
  have reads : ∀ {text stem : String},
      Option.guard isStem text = some stem ↔ GivesStem text stem := by
    intro text stem
    rw [Option.guard_eq_some_iff, GivesStem, isStem_iff, and_comm, eq_comm]
  rw [isTaken_iff reads, isTaken_iff limit?_eq_some_iff, isTaken_iff limit?_eq_some_iff,
    Option.bind_guard, ofTexts]
  constructor
  · rintro rfl
    exact ⟨rfl, rfl, rfl⟩
  · rintro ⟨first, second, third⟩
    obtain ⟨_, _, _⟩ := settings
    exact congr (congrArg₂ Settings.mk first second) third

/-! ### Placeholders of values -/

open Placeholders

/-- **Settings from texts make legible placeholders.** Whatever the three texts are, the stem is a
colon and word characters, and the limits are positive; each setting is taken from its own text. In
every run on a table with these settings, the placeholder of a value is a colon and word characters,
at least one. In the table it is neither that of a name nor that of another value, and whatever else
was given the same placeholder in the run is an equal value. -/
theorem ofTexts_makes_legible_placeholders (stem maxBytes maxCandidates : Option String)
    (tasks : List Task) :
    let settings := ofTexts stem maxBytes maxCandidates
    let start := empty settings
    let table := start.run tasks
    (IsStem settings.stem ∧ 1 ≤ settings.maxBytes ∧ 1 ≤ settings.maxCandidates) ∧
    (∀ other : Settings, other = settings ↔
      IsTaken GivesStem ":v" stem other.stem ∧
      IsTaken GivesLimit 4096 maxBytes other.maxBytes ∧
      IsTaken GivesLimit 100 maxCandidates other.maxCandidates) ∧
    (∀ placeholder value, table.value? placeholder = some value →
      IsMarked ':' placeholder ∧ table.name? placeholder = none) ∧
    (table.values.map Prod.snd).Nodup ∧
    (∀ value placeholder, (.value value, placeholder) ∈ start.history tasks →
      IsMarked ':' placeholder ∧
        ∀ receipt ∈ start.history tasks, receipt.2 = placeholder →
          ∃ equal, receipt.1 = .value equal ∧ (equal == value) = true) := by
  intro settings start table
  obtain ⟨takenStem, takenBytes, takenCandidates⟩ := eq_ofTexts_iff.1 (Eq.refl settings)
  have isStem : IsStem settings.stem := by
    refine takenStem.property (fun text stem gave => ?_) (isStem_iff.1 (by decide))
    rw [gave.2]
    exact gave.1
  have positive : ∀ text limit, GivesLimit text limit → 1 ≤ limit := fun _ _ gave => gave.1
  have consistent : table.Consistent := (consistent_empty settings).run tasks
  have fit : Settings.isStem table.settings.stem = true := by
    rw [settings_run, settings_empty]
    exact isStem_iff.2 isStem
  have apart : ∀ placeholder value, table.value? placeholder = some value →
      IsMarked ':' placeholder ∧ table.name? placeholder = none := by
    intro placeholder value found
    have marked := consistent.marked_value fit found
    refine ⟨marked, Option.eq_none_iff_forall_ne_some.2 fun name found' => ?_⟩
    -- Placeholders of names have another mark.
    cases marked.unique (consistent.marked (consistent.name?_iff.1 found'))
  refine ⟨⟨isStem, takenBytes.property positive (by decide),
    takenCandidates.property positive (by decide)⟩, fun other => eq_ofTexts_iff, apart,
    consistent.nodup_placeholders, ?_⟩
  intro value placeholder mem
  have given := placeholder?_of_mem_history mem []
  obtain ⟨known, found, _⟩ := consistent.ofValue?_iff_value?.1 given
  refine ⟨(apart _ _ found).1, ?_⟩
  rintro ⟨registration, _⟩ mem' rfl
  have given' := placeholder?_of_mem_history mem' []
  cases registration with
  | name name =>
    have found' := consistent.ofName?_iff_name?.1 given'
    rw [(apart _ _ found).2] at found'
    cases found'
  | value equal => exact ⟨equal, rfl, (consistent.ofValue?_eq_iff given' given).1 rfl⟩

/-- A stem that ends in a digit, a limit with a sign and zeros, and one that is too small. -/
example :
    let settings := ofTexts (some ":1") (some "+0020") (some "0")
    settings = { stem := ":1", maxBytes := 20, maxCandidates := 100 } ∧
      ((empty settings).history [.value (.boolean true), .entry "11" (.boolean false),
        .condition .filter (.compare (.path "my age") .eq (.value (.null true))),
        .value (.null true)]).map Prod.snd = [":11", "#11", ":12", "#n1", ":13", ":13"] := by
  decide +kernel

end ItemExpr.Settings
