import ItemExpr.Proofs.Update.Change

/-! # Entries of updates

An `Update.Entry` is what stands between two commas of an update, as the grammar of updates sees it:
an assignment, a target alone, or a target and a source. `Change.entry` is the entry that is
documented for a change. An entry in placeholders is read by looking all of them up
(`Update.Entry.resolve`), and for the spelling of a change that gives the documented entry, up to
equality of its literals (`Change.resolve_entry_spell`). -/

namespace ItemExpr

/-- How two sources are **combined**. -/
inductive Update.Operation where
  /-- They are added. -/
  | sum
  /-- The second is subtracted from the first. -/
  | difference
  /-- They are lists, and are joined. -/
  | joined
deriving DecidableEq, Repr

/-- What a target is **assigned**. -/
inductive Update.Assigned (ν : Type) where
  /-- A source alone. -/
  | just (source : Source ν)
  /-- Two sources, combined. -/
  | combined (operation : Update.Operation) (left right : Source ν)
deriving DecidableEq, Repr

/-- An **entry** of an update. -/
inductive Update.Entry (ν : Type) where
  /-- A target is assigned something. -/
  | assign (target : Path) (assigned : Update.Assigned ν)
  /-- A target alone. -/
  | alone (target : Path)
  /-- A target and a source. -/
  | pair (target : Path) (source : Source ν)
deriving DecidableEq, Repr

variable {ν : Type}

/-- An attribute of the item as a source. -/
def Source.ofPath (path : Path) : Source ν := .reference path none

/-- The **documented entry** of a change. -/
def Change.entry : Change ν → Update.Entry ν
  | .remove target => .alone target
  | .change .set target source => .assign target (.just source)
  | .change .add target source => .assign target (.combined .sum (.ofPath target) source)
  | .change .subtract target source =>
    .assign target (.combined .difference (.ofPath target) source)
  | .change .append target source => .assign target (.combined .joined (.ofPath target) source)
  | .change .prepend target source => .assign target (.combined .joined source (.ofPath target))
  | .change .addToSet target source => .pair target source
  | .change .deleteFromSet target source => .pair target source

/-! ### Equality up to equality of literals -/

section Equality

variable [BEq ν]

/-- Whether two sources are equal. -/
def Source.same : Source ν → Source ν → Bool
  | .value a, .value b => a == b
  | .reference p a, .reference q b => decide (p = q) && a == b
  | _, _ => false

instance : BEq (Source ν) := ⟨Source.same⟩

/-- Whether two targets are assigned the same. -/
def Update.Assigned.same : Update.Assigned ν → Update.Assigned ν → Bool
  | .just a, .just b => a == b
  | .combined o a b, .combined o' a' b' => decide (o = o') && a == a' && b == b'
  | _, _ => false

instance : BEq (Update.Assigned ν) := ⟨Update.Assigned.same⟩

/-- Whether two entries are equal. -/
def Update.Entry.same : Update.Entry ν → Update.Entry ν → Bool
  | .assign p a, .assign q b => decide (p = q) && a == b
  | .alone p, .alone q => p = q
  | .pair p a, .pair q b => decide (p = q) && a == b
  | _, _ => false

instance : BEq (Update.Entry ν) := ⟨Update.Entry.same⟩

end Equality

/-! ### Looking up placeholders -/

/-- The source that a source in placeholders stands for. -/
def Source.resolve (names : String → Option String) (values : String → Option AttributeValue) :
    Source String → Option (Source AttributeValue)
  | .value placeholder => (values placeholder).map .value
  | .reference path none => (path.resolve names).map .ofPath
  | .reference path (some placeholder) => do
    let path ← path.resolve names
    let fallback ← values placeholder
    pure (.reference path (some fallback))

/-- What is assigned in placeholders, looked up. -/
def Update.Assigned.resolve (names : String → Option String)
    (values : String → Option AttributeValue) :
    Update.Assigned String → Option (Update.Assigned AttributeValue)
  | .just source => (source.resolve names values).map .just
  | .combined operation left right => do
    let left ← left.resolve names values
    let right ← right.resolve names values
    pure (.combined operation left right)

/-- The entry that an entry in placeholders **stands for**. -/
def Update.Entry.resolve (names : String → Option String)
    (values : String → Option AttributeValue) :
    Update.Entry String → Option (Update.Entry AttributeValue)
  | .assign target assigned => do
    let target ← target.resolve names
    let assigned ← assigned.resolve names values
    pure (.assign target assigned)
  | .alone target => (target.resolve names).map .alone
  | .pair target source => do
    let target ← target.resolve names
    let source ← source.resolve names values
    pure (.pair target source)

section Resolve

variable {f : Registration → String} {names : String → Option String}
  {values : String → Option AttributeValue}

/-- An attribute is found again in its spelling. -/
theorem Source.resolve_ofPath_spell {path : Path}
    (inverts : Inverts f names values path.mentions) :
    (Source.ofPath (path.spell f)).resolve names values = some (.ofPath path) := by
  rw [ofPath, resolve, Path.resolve_spell inverts, Option.map_some]

/-- An attribute is the same as itself. -/
theorem Source.ofPath_beq (path : Path) :
    ((Source.ofPath path : Source AttributeValue) == .ofPath path) = true := by
  show (decide (path = path) && (none : Option AttributeValue) == none) = true
  rw [decide_eq_true rfl]
  rfl

/-- A source is found again in its spelling. -/
theorem Source.resolve_spell {source : Source AttributeValue}
    (inverts : Inverts f names values source.mentions) :
    ∃ found, (source.spell f).resolve names values = some found ∧ (found == source) = true := by
  cases source with
  | value literal =>
    obtain ⟨known, found, equal⟩ := inverts _ (List.mem_singleton_self _)
    refine ⟨.value known, ?_, equal⟩
    rw [spell, resolve, found, Option.map_some]
  | reference path fallback =>
    cases fallback with
    | none => exact ⟨_, Source.resolve_ofPath_spell inverts, Source.ofPath_beq path⟩
    | some fallback =>
      rw [mentions, inverts_append] at inverts
      obtain ⟨known, found, equal⟩ := inverts.2 _ (List.mem_singleton_self _)
      refine ⟨.reference path (some known), ?_, ?_⟩
      · rw [spell, Option.map_some, resolve, Path.resolve_spell inverts.1, found]
        rfl
      · show (decide (path = path) && known == fallback) = true
        rw [decide_eq_true rfl, equal, Bool.and_self]

/-- An assignment of two combined sources is found if its target and both sources are. -/
theorem Update.Entry.resolve_assign_combined {target target' : Path}
    {left right : Source String} {left' right' left'' right'' : Source AttributeValue}
    (operation : Update.Operation) (found : target'.resolve names = some target)
    (foundLeft : left.resolve names values = some left') (equalLeft : (left' == left'') = true)
    (foundRight : right.resolve names values = some right')
    (equalRight : (right' == right'') = true) :
    ∃ entry, (Update.Entry.assign target' (.combined operation left right)).resolve names values =
        some entry ∧ (entry == .assign target (.combined operation left'' right'')) = true := by
  refine ⟨.assign target (.combined operation left' right'), ?_, ?_⟩
  · rw [resolve, found, Update.Assigned.resolve, foundLeft, foundRight]
    rfl
  · show (decide (target = target) &&
      (decide (operation = operation) && left' == left'' && right' == right'')) = true
    rw [decide_eq_true rfl, decide_eq_true rfl, equalLeft, equalRight]
    rfl

/-- **The documented entry of a change is found again in its spelling.** -/
theorem Change.resolve_entry_spell {change : Change AttributeValue}
    (inverts : Inverts f names values change.mentions) :
    ∃ found, (change.spell f).entry.resolve names values = some found ∧
      (found == change.entry) = true := by
  cases change with
  | remove target =>
    refine ⟨.alone target, ?_, decide_eq_true rfl⟩
    rw [spell, entry, Update.Entry.resolve, Path.resolve_spell inverts, Option.map_some]
  | change kind target source =>
    rw [mentions, inverts_append] at inverts
    obtain ⟨source', found, equal⟩ := Source.resolve_spell inverts.2
    -- The target stands on the right side as well, where it is one of the sources.
    have target' := Path.resolve_spell inverts.1
    have own := Source.resolve_ofPath_spell inverts.1
    have self := Source.ofPath_beq target
    cases kind with
    | set =>
      refine ⟨.assign target (.just source'), ?_, ?_⟩
      · rw [spell, entry, Update.Entry.resolve, target', Update.Assigned.resolve, found]
        rfl
      · show (decide (target = target) && source' == source) = true
        rw [decide_eq_true rfl, equal, Bool.and_self]
    | add | subtract | append =>
      exact Update.Entry.resolve_assign_combined _ target' own self found equal
    | prepend => exact Update.Entry.resolve_assign_combined _ target' found equal own self
    | addToSet | deleteFromSet =>
      refine ⟨.pair target source', ?_, ?_⟩
      · rw [spell, entry, Update.Entry.resolve, target', found]
        rfl
      · show (decide (target = target) && source' == source) = true
        rw [decide_eq_true rfl, equal, Bool.and_self]

end Resolve

end ItemExpr
