import ItemExpr.Proofs.AttributeValue.Canonical
import ItemExpr.Proofs.Collections.Increasing

/-! # Values with equal contents

What it means for two values to be equal, said of their contents alone (`Equal`): sets have the same
members, lists agree item by item, and maps have the same keys with equal values. The entries of a
map may be met in any order; `arranged` brings those of every map in a value into order, and is the
value itself if they are in order already. Arranged values are equal as `same` decides it exactly if
their contents are (`same_arranged_iff_equal`). -/

namespace ItemExpr.AttributeValue

/-! ### Values within values -/

/-- Whether a value holds other values. -/
def isContainer : AttributeValue → Bool
  | .list _ | .map _ => true
  | _ => false

/-- Induction on values, with the items of a list and the entries of a map at once. -/
@[elab_as_elim]
theorem induction {motive : AttributeValue → Prop}
    (leaf : ∀ value, value.isContainer = false → motive value)
    (list : ∀ items, (∀ item ∈ items, motive item) → motive (.list items))
    (map : ∀ entries, (∀ key value, (key, value) ∈ entries → motive value) →
      motive (.map entries)) : ∀ value, motive value
  | .list items => list items fun item _ => induction leaf list map item
  | .map entries => map entries fun _ value _ => induction leaf list map value
  | .string text => leaf (.string text) rfl
  | .number text => leaf (.number text) rfl
  | .binary bytes => leaf (.binary bytes) rfl
  | .stringSet members => leaf (.stringSet members) rfl
  | .numberSet members => leaf (.numberSet members) rfl
  | .binarySet members => leaf (.binarySet members) rfl
  | .boolean flag => leaf (.boolean flag) rfl
  | .null flag => leaf (.null flag) rfl
termination_by value => sizeOf value
decreasing_by
  · have smaller := List.sizeOf_lt_of_mem ‹item ∈ items›
    simp only [AttributeValue.list.sizeOf_spec]
    omega
  · have smaller := List.sizeOf_lt_of_mem ‹_ ∈ entries›
    simp only [AttributeValue.map.sizeOf_spec, Prod.mk.sizeOf_spec] at smaller ⊢
    omega

/-! ### Contents -/

/-- Whether two values have **equal contents**. -/
inductive Equal : AttributeValue → AttributeValue → Prop where
  /-- The same text. -/
  | string (text : String) : Equal (.string text) (.string text)
  /-- The same text of a number. -/
  | number (text : String) : Equal (.number text) (.number text)
  /-- The same bytes. -/
  | binary (bytes : Bytes) : Equal (.binary bytes) (.binary bytes)
  /-- The same members. -/
  | stringSet {a b : List String} (members : ∀ text, text ∈ a ↔ text ∈ b) :
      Equal (.stringSet a) (.stringSet b)
  /-- The same members. -/
  | numberSet {a b : List String} (members : ∀ text, text ∈ a ↔ text ∈ b) :
      Equal (.numberSet a) (.numberSet b)
  /-- The same members. -/
  | binarySet {a b : List Bytes} (members : ∀ bytes, bytes ∈ a ↔ bytes ∈ b) :
      Equal (.binarySet a) (.binarySet b)
  /-- The same truth value. -/
  | boolean (flag : Bool) : Equal (.boolean flag) (.boolean flag)
  /-- The same flag. -/
  | null (flag : Bool) : Equal (.null flag) (.null flag)
  /-- Equal items in the same order. -/
  | list {as bs : List AttributeValue} (items : List.Forall₂ Equal as bs) :
      Equal (.list as) (.list bs)
  /-- The same keys with equal values. -/
  | map {as bs : List (String × AttributeValue)}
      (keys : ∀ key, key ∈ Entries.keys as ↔ key ∈ Entries.keys bs)
      (values : ∀ key a b, (key, a) ∈ as → (key, b) ∈ bs → Equal a b) :
      Equal (.map as) (.map bs)

mutual

/-- Whether no map in a value has a key twice. -/
def Keyed : AttributeValue → Prop
  | .list items => KeyedItems items
  | .map entries => (Entries.keys entries).Nodup ∧ KeyedEntries entries
  | _ => True

/-- Whether no map in some values has a key twice. -/
def KeyedItems : List AttributeValue → Prop
  | [] => True
  | item :: items => Keyed item ∧ KeyedItems items

/-- Whether no map in the values of some entries has a key twice. -/
def KeyedEntries : List (String × AttributeValue) → Prop
  | [] => True
  | (_, value) :: entries => Keyed value ∧ KeyedEntries entries

end

mutual

/-- A value with the entries of each of its maps **arranged** in the order of their keys. -/
def arranged : AttributeValue → AttributeValue
  | .list items => .list (arrangedItems items)
  | .map entries => .map (Entries.ofList (arrangedEntries entries))
  | value => value

/-- The items of a list, arranged. -/
def arrangedItems : List AttributeValue → List AttributeValue
  | [] => []
  | item :: items => arranged item :: arrangedItems items

/-- The entries of a map, each value arranged. -/
def arrangedEntries : List (String × AttributeValue) → List (String × AttributeValue)
  | [] => []
  | (key, value) :: entries => (key, arranged value) :: arrangedEntries entries

end

theorem orderedItems_iff {items : List AttributeValue} :
    OrderedItems items ↔ ∀ item ∈ items, Ordered item := by
  induction items with
  | nil => simp [OrderedItems]
  | cons item items ih => rw [OrderedItems, ih, List.forall_mem_cons]

theorem orderedEntries_iff {entries : List (String × AttributeValue)} :
    OrderedEntries entries ↔ ∀ key value, (key, value) ∈ entries → Ordered value := by
  induction entries with
  | nil => simp [OrderedEntries]
  | cons entry entries ih =>
    simp only [OrderedEntries, ih, List.mem_cons]
    grind

theorem keyedItems_iff {items : List AttributeValue} :
    KeyedItems items ↔ ∀ item ∈ items, Keyed item := by
  induction items with
  | nil => simp [KeyedItems]
  | cons item items ih => rw [KeyedItems, ih, List.forall_mem_cons]

theorem keyedEntries_iff {entries : List (String × AttributeValue)} :
    KeyedEntries entries ↔ ∀ key value, (key, value) ∈ entries → Keyed value := by
  induction entries with
  | nil => simp [KeyedEntries]
  | cons entry entries ih =>
    simp only [KeyedEntries, ih, List.mem_cons]
    grind

@[simp] theorem arrangedItems_eq_map (items : List AttributeValue) :
    arrangedItems items = items.map arranged := by
  induction items with
  | nil => rfl
  | cons item items ih => rw [arrangedItems, ih, List.map_cons]

@[simp] theorem arrangedEntries_eq_map (entries : List (String × AttributeValue)) :
    arrangedEntries entries = entries.map fun entry => (entry.1, entry.2.arranged) := by
  induction entries with
  | nil => rfl
  | cons entry entries ih => rw [arrangedEntries, ih, List.map_cons]

/-- The keys of a map stay when its values are arranged. -/
theorem keys_map_arranged (entries : List (String × AttributeValue)) :
    Entries.keys (entries.map fun entry => (entry.1, entry.2.arranged)) = Entries.keys entries := by
  rw [Entries.keys, List.map_map]
  rfl

/-! ### Values whose maps are in order -/

/-- In order, no key occurs twice. -/
theorem Ordered.keyed {value : AttributeValue} (ordered : value.Ordered) : value.Keyed := by
  induction value using induction with
  | leaf value leaf =>
    cases value with
    | list | map => cases leaf
    | _ => trivial
  | list items ih =>
    rw [Keyed, keyedItems_iff]
    rw [Ordered, orderedItems_iff] at ordered
    exact fun item mem => ih item mem (ordered item mem)
  | map entries ih =>
    rw [Keyed, keyedEntries_iff]
    rw [Ordered, orderedEntries_iff] at ordered
    exact ⟨ordered.1.nodup_keys,
      fun key value mem => ih key value mem (ordered.2 key value mem)⟩

/-- What is in order stays as it is. -/
theorem Ordered.arranged_eq {value : AttributeValue} (ordered : value.Ordered) :
    value.arranged = value := by
  induction value using induction with
  | leaf value leaf =>
    cases value with
    | list | map => cases leaf
    | _ => rfl
  | list items ih =>
    rw [Ordered, orderedItems_iff] at ordered
    have same : items.map arranged = items := by
      conv_rhs => rw [← List.map_id items]
      exact List.map_congr_left fun item mem => ih item mem (ordered item mem)
    rw [arranged, arrangedItems_eq_map, same]
  | map entries ih =>
    rw [Ordered, orderedEntries_iff] at ordered
    have same : (entries.map fun entry => (entry.1, entry.2.arranged)) = entries := by
      conv_rhs => rw [← List.map_id entries]
      refine List.map_congr_left fun entry mem => ?_
      rw [ih entry.1 entry.2 mem (ordered.2 entry.1 entry.2 mem)]
      rfl
    rw [arranged, arrangedEntries_eq_map, same, Entries.ofList_of_sorted ordered.1]

/-! ### Equality decides whether contents are equal -/

theorem sameItems_iff_forall₂ {as bs : List AttributeValue} :
    sameItems as bs = true ↔ List.Forall₂ (fun a b => same a b = true) as bs := by
  induction as generalizing bs with
  | nil => cases bs <;> simp [sameItems]
  | cons a as ih =>
    cases bs with
    | nil => simp [sameItems]
    | cons b bs => rw [sameItems, Bool.and_eq_true, ih, List.forall₂_cons]

theorem sameEntries_iff_forall₂ {as bs : List (String × AttributeValue)} :
    sameEntries as bs = true ↔
      List.Forall₂ (fun a b => a.1 = b.1 ∧ same a.2 b.2 = true) as bs := by
  induction as generalizing bs with
  | nil => cases bs <;> simp [sameEntries]
  | cons a as ih =>
    cases bs with
    | nil => simp [sameEntries]
    | cons b bs => simp [sameEntries, ih, List.forall₂_cons, Bool.and_eq_true]

/-- Values that hold no others are equal exactly if their contents are. -/
theorem same_iff_equal_of_leaf {a b : AttributeValue} (leaf : a.isContainer = false) :
    same a b = true ↔ Equal a b := by
  cases a with
  | list | map => cases leaf
  | string | number | binary | boolean | null =>
    constructor
    · intro equal
      cases b <;> simp only [same, beq_iff_eq, Bool.false_eq_true] at equal
      subst equal
      constructor
    · rintro ⟨⟩
      simp [same]
  | stringSet | numberSet | binarySet =>
    constructor
    · intro equal
      cases b <;>
        simp only [same, beq_iff_eq, Members.distinct_eq_iff, Bool.false_eq_true] at equal
      constructor
      exact equal
    · intro equal
      cases equal
      rw [same, beq_iff_eq, Members.distinct_eq_iff]
      assumption

/-- Lists agree item by item with either of two relations that say the same of their items. -/
theorem forall₂_iff_of_mem {α β : Type} {agrees agrees' : α → β → Prop} {as : List α} {bs : List β}
    (each : ∀ a ∈ as, ∀ b ∈ bs, agrees a b ↔ agrees' a b) :
    List.Forall₂ agrees as bs ↔ List.Forall₂ agrees' as bs := by
  induction as generalizing bs with
  | nil => cases bs <;> simp
  | cons a as ih =>
    cases bs with
    | nil => simp
    | cons b bs =>
      have first := each a List.mem_cons_self b List.mem_cons_self
      have rest := ih fun a mem b mem' =>
        each a (List.mem_cons_of_mem _ mem) b (List.mem_cons_of_mem _ mem')
      rw [List.forall₂_cons, List.forall₂_cons, first, rest]

/-- Arranged maps are equal exactly if their contents are, if this holds of what they have. -/
theorem same_arranged_map_iff {entries others : List (String × AttributeValue)}
    (distinct : (Entries.keys entries).Nodup) (distinct' : (Entries.keys others).Nodup)
    (each : ∀ key a b, (key, a) ∈ entries → (key, b) ∈ others →
      (same a.arranged b.arranged = true ↔ Equal a b)) :
    same (arranged (.map entries)) (arranged (.map others)) = true ↔
      Equal (.map entries) (.map others) := by
  rw [← keys_map_arranged] at distinct distinct'
  rw [arranged, arranged, arrangedEntries_eq_map, arrangedEntries_eq_map, same,
    sameEntries_iff_forall₂,
    Entries.forall₂_iff_of_sorted (fun a b => same a b = true)
      (Entries.sorted_ofList _) (Entries.sorted_ofList _)]
  simp only [Entries.mem_keys_ofList, keys_map_arranged, Entries.mem_ofList distinct,
    Entries.mem_ofList distinct']
  constructor
  · rintro ⟨keys, values⟩
    refine .map keys fun key a b mem mem' => ?_
    rw [← each key a b mem mem']
    exact values key _ _ (List.mem_map_of_mem mem) (List.mem_map_of_mem mem')
  · rintro ⟨⟩
    next keys values =>
    refine ⟨keys, fun key a b mem mem' => ?_⟩
    obtain ⟨⟨known, a⟩, within, same⟩ := List.mem_map.1 mem
    obtain ⟨⟨known', b⟩, within', same'⟩ := List.mem_map.1 mem'
    obtain ⟨rfl, rfl⟩ := Prod.mk.inj same
    obtain ⟨rfl, rfl⟩ := Prod.mk.inj same'
    exact (each _ a b within within').2 (values _ a b within within')

/-- **Arranged values are equal exactly if their contents are**, in whatever order the entries of
their maps were. -/
theorem same_arranged_iff_equal {a b : AttributeValue} (keyed : a.Keyed) (keyed' : b.Keyed) :
    same a.arranged b.arranged = true ↔ Equal a b := by
  induction a using induction generalizing b with
  | leaf a leaf =>
    cases b with
    | list | map =>
      cases a with
      | list | map => cases leaf
      | _ => exact iff_of_false nofun nofun
    | _ =>
      cases a with
      | list | map => cases leaf
      | _ => exact same_iff_equal_of_leaf rfl
  | list items ih =>
    cases b with
    | list others =>
      rw [Keyed, keyedItems_iff] at keyed keyed'
      rw [arranged, arranged, arrangedItems_eq_map, arrangedItems_eq_map, same,
        sameItems_iff_forall₂, List.forall₂_map_left_iff, List.forall₂_map_right_iff,
        forall₂_iff_of_mem fun a mem b mem' => ih a mem (keyed a mem) (keyed' b mem')]
      constructor
      · exact .list
      · rintro ⟨⟩
        assumption
    | _ => exact iff_of_false nofun nofun
  | map entries ih =>
    cases b with
    | map others =>
      rw [Keyed, keyedEntries_iff] at keyed keyed'
      exact same_arranged_map_iff keyed.1 keyed'.1 fun key a b mem mem' =>
        ih key a mem (keyed.2 key a mem) (keyed'.2 key b mem')
    | _ => exact iff_of_false nofun nofun

end ItemExpr.AttributeValue
