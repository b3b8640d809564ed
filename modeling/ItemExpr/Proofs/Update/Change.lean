import ItemExpr.Proofs.Formula.Text

/-! # Changes

A `Change` is one entry of an update as a grammar sees it: its paths are read, and its literals are
of a type that varies, placeholders in what is written and attribute values in what is meant. Each
change belongs to one part of an update and has one documented text there. -/

namespace ItemExpr

/-- Where a change takes its operand **from**. -/
inductive Source (ν : Type) where
  /-- From a literal. -/
  | value (value : ν)
  /-- From an attribute, or from a literal in its place if it does not exist. -/
  | reference (path : Path) (fallback : Option ν)
deriving DecidableEq, Repr

/-- What a change **does** with its operand. -/
inductive Change.Kind where
  /-- The target becomes the operand. -/
  | set
  /-- The operand is added to the target, a number. -/
  | add
  /-- The operand is subtracted from the target. -/
  | subtract
  /-- The operand is joined to the end of the target, a list. -/
  | append
  /-- The operand is joined to the front of the target. -/
  | prepend
  /-- The members of the operand are put into the target, a set. -/
  | addToSet
  /-- The members of the operand are taken from the target. -/
  | deleteFromSet
deriving DecidableEq, Repr

/-- A **change** of an item. -/
inductive Change (ν : Type) where
  /-- An attribute goes. -/
  | remove (target : Path)
  /-- An attribute is changed by an operand. -/
  | change (kind : Change.Kind) (target : Path) (source : Source ν)
deriving DecidableEq, Repr

variable {ν : Type}

/-! ### Mentions and spelling -/

/-- The **mentions of a source**, in order. -/
def Source.mentions : Source ν → List (Mention ν)
  | .value literal => [.value literal]
  | .reference path none => path.mentions
  | .reference path (some fallback) => path.mentions ++ [.value fallback]

/-- A source, **spelled** in placeholders. -/
def Source.spell (f : Registration → String) : Source AttributeValue → Source String
  | .value literal => .value (f (.value literal))
  | .reference path fallback =>
    .reference (path.spell f) (fallback.map fun literal => f (.value literal))

/-- The **mentions of a change**, in order. -/
def Change.mentions : Change ν → List (Mention ν)
  | .remove target => target.mentions
  | .change _ target source => target.mentions ++ source.mentions

/-- A change, **spelled** in placeholders. -/
def Change.spell (f : Registration → String) : Change AttributeValue → Change String
  | .remove target => .remove (target.spell f)
  | .change kind target source => .change kind (target.spell f) (source.spell f)

/-- A source is spelled alike by spellings that agree on its mentions. -/
theorem Source.spell_congr {f g : Registration → String} {source : Source AttributeValue}
    (agree : ∀ registration ∈ source.mentions, f registration = g registration) :
    source.spell f = source.spell g := by
  cases source with
  | value literal => rw [spell, spell, agree _ (List.mem_singleton_self _)]
  | reference path fallback =>
    cases fallback with
    | none => rw [spell, spell, Path.spell_congr agree, Option.map_none, Option.map_none]
    | some fallback =>
      rw [mentions, List.forall_mem_append] at agree
      rw [spell, spell, Path.spell_congr agree.1, Option.map_some, Option.map_some,
        agree.2 _ (List.mem_singleton_self _)]

/-- A change is spelled alike by spellings that agree on its mentions. -/
theorem Change.spell_congr {f g : Registration → String} {change : Change AttributeValue}
    (agree : ∀ registration ∈ change.mentions, f registration = g registration) :
    change.spell f = change.spell g := by
  cases change with
  | remove target => rw [spell, spell, Path.spell_congr agree]
  | change kind target source =>
    rw [mentions, List.forall_mem_append] at agree
    rw [spell, spell, Path.spell_congr agree.1, Source.spell_congr agree.2]

/-- The mentions of a spelled source are its mentions, spelled. -/
@[simp] theorem Source.mentions_spell (f : Registration → String)
    (source : Source AttributeValue) :
    (source.spell f).mentions = source.mentions.map (Mention.spell f) := by
  cases source with
  | value literal => rfl
  | reference path fallback =>
    cases fallback with
    | none => exact path.mentions_spell f
    | some fallback =>
      rw [spell, Option.map_some, mentions, mentions, List.map_append, Path.mentions_spell]
      rfl

/-- The mentions of a spelled change are its mentions, spelled. -/
@[simp] theorem Change.mentions_spell (f : Registration → String)
    (change : Change AttributeValue) :
    (change.spell f).mentions = change.mentions.map (Mention.spell f) := by
  cases change with
  | remove target => exact target.mentions_spell f
  | change kind target source =>
    rw [spell, mentions, mentions, List.map_append, Path.mentions_spell, Source.mentions_spell]

/-- The mentions of spelled changes are their mentions, spelled. -/
theorem Change.flatMap_mentions_map_spell (f : Registration → String)
    (changes : List (Change AttributeValue)) :
    (changes.map (Change.spell f)).flatMap Change.mentions =
      (changes.flatMap Change.mentions).map (Mention.spell f) :=
  Mention.flatMap_map (Change.mentions_spell f) changes

/-! ### Texts -/

/-- The **text of a source** in placeholders. -/
def Source.text : Source String → String
  | .value placeholder => placeholder
  | .reference path none => path.text
  | .reference path (some fallback) => Function.ifNotExists.call [path.text, fallback]

/-- The part of an update that changes of a kind are written in. -/
def Change.Kind.part : Change.Kind → UpdatePart
  | .set | .add | .subtract | .append | .prepend => .set
  | .addToSet => .add
  | .deleteFromSet => .delete

/-- The **part of an update** that a change is written in. -/
def Change.part : Change ν → UpdatePart
  | .remove _ => .remove
  | .change kind _ _ => kind.part

/-- The **text of a change** in placeholders. -/
def Change.text : Change String → String
  | .remove target => target.text
  | .change .set target source => target.text ++ " = " ++ source.text
  | .change .add target source => target.text ++ " = " ++ target.text ++ " + " ++ source.text
  | .change .subtract target source => target.text ++ " = " ++ target.text ++ " - " ++ source.text
  | .change .append target source =>
    target.text ++ " = " ++ Function.listAppend.call [target.text, source.text]
  | .change .prepend target source =>
    target.text ++ " = " ++ Function.listAppend.call [source.text, target.text]
  | .change .addToSet target source => target.text ++ " " ++ source.text
  | .change .deleteFromSet target source => target.text ++ " " ++ source.text

@[simp] theorem Change.part_spell (f : Registration → String) (change : Change AttributeValue) :
    (change.spell f).part = change.part := by
  cases change <;> rfl

/-! ### Phrases -/

/-- The phrase of a source. -/
def Source.phrase (source : Source AttributeValue) : Phrase String where
  registrations := source.mentions
  write f := (source.spell f).text
  write_congr agree := by rw [Source.spell_congr agree]

/-- The phrase of a change. -/
def Change.phrase (change : Change AttributeValue) : Phrase String where
  registrations := change.mentions
  write f := (change.spell f).text
  write_congr agree := by rw [Change.spell_congr agree]

/-- The phrase of some changes: their parts and texts, in order. -/
def Change.phraseAll (changes : List (Change AttributeValue)) :
    Phrase (List (UpdatePart × String)) where
  registrations := changes.flatMap Change.mentions
  write f := changes.map fun change => (change.part, (change.spell f).text)
  write_congr agree := by
    refine List.map_congr_left fun change mem => ?_
    rw [Change.spell_congr fun registration mem' =>
      agree registration (List.mem_flatMap.2 ⟨change, mem, mem'⟩)]

end ItemExpr
