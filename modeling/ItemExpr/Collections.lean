/-! # Collections in order

A map from texts as a list of entries in strictly increasing order of their keys, so that a map
has one list. Keys are compared by code points, which is also the order of their UTF-8 bytes.
`Entries.insert` keeps the order and lets the last entry of a key win.

The members of a set as a list in strictly increasing order, each once (`Members.distinct`). Two
lists have the same distinct members exactly when they hold the same members, in whatever order and
however often. -/

namespace ItemExpr

/-! ### Entries -/

/-- **Entries**, in increasing order of their keys. -/
abbrev Entries (α : Type) := List (String × α)

namespace Entries

variable {α β : Type}

/-- Whether the keys increase strictly, so that no key occurs twice. -/
def Sorted (entries : Entries α) : Prop := entries.Pairwise fun a b => a.1 < b.1

/-- The keys, in order. -/
def keys (entries : Entries α) : List String := entries.map Prod.fst

/-- Put an entry in its place; an entry of the same key is replaced. -/
def insert (key : String) (value : α) : Entries α → Entries α
  | [] => [(key, value)]
  | entry :: entries =>
    if key < entry.1 then (key, value) :: entry :: entries
    else if key = entry.1 then (key, value) :: entries
    else entry :: insert key value entries

/-- The value of a key. -/
def find? (key : String) (entries : Entries α) : Option α :=
  (List.find? (fun entry => entry.1 = key) entries).map Prod.snd

/-- The entries of a list of pairs; of pairs with one key the last one counts. -/
def ofList (pairs : List (String × α)) : Entries α :=
  pairs.foldl (fun entries pair => insert pair.1 pair.2 entries) []

@[simp] theorem sorted_nil : Sorted ([] : Entries α) := List.Pairwise.nil

theorem mem_insert {key : String} {value : α} {entry : String × α} {entries : Entries α}
    (mem : entry ∈ insert key value entries) : entry = (key, value) ∨ entry ∈ entries := by
  induction entries with
  | nil => simpa [insert] using mem
  | cons head tail ih => unfold insert at mem; grind

/-- After an insertion the key has the new value, and any other key has what it had. -/
theorem find?_insert (key other : String) (value : α) (entries : Entries α) :
    find? other (insert key value entries) =
      if other = key then some value else find? other entries := by
  induction entries with
  | nil =>
    simp only [insert, find?, List.find?_cons, List.find?_nil]
    grind
  | cons head tail ih =>
    simp only [find?] at ih
    simp only [insert, find?]
    grind

/-- A key has a value exactly when it is one of the keys. -/
theorem isSome_find? {key : String} {entries : Entries α} :
    (find? key entries).isSome = true ↔ key ∈ keys entries := by
  rw [find?, keys, Option.isSome_map, List.find?_isSome]
  simp [List.mem_map, eq_comm]

theorem find?_eq_none_iff {key : String} {entries : Entries α} :
    find? key entries = none ↔ key ∉ keys entries := by
  rw [← isSome_find?]
  simp

/-- The keys after an insertion. -/
theorem mem_keys_insert {key other : String} {value : α} {entries : Entries α} :
    other ∈ keys (insert key value entries) ↔ other = key ∨ other ∈ keys entries := by
  rw [← isSome_find?, find?_insert, ← isSome_find?]
  by_cases same : other = key <;> simp [same]

theorem sorted_insert {key : String} {value : α} {entries : Entries α}
    (sorted : Sorted entries) : Sorted (insert key value entries) := by
  induction entries with
  | nil => simp [insert, Sorted]
  | cons head tail ih =>
    have ⟨above, sortedTail⟩ := List.pairwise_cons.1 sorted
    unfold insert
    split
    · next less =>
      refine List.pairwise_cons.2 ⟨fun entry mem => ?_, sorted⟩
      rcases List.mem_cons.1 mem with rfl | mem
      · exact less
      · exact String.lt_trans less (above _ mem)
    split
    · next same => exact List.pairwise_cons.2 ⟨same ▸ above, sortedTail⟩
    · next notLess differ =>
      refine List.pairwise_cons.2 ⟨fun entry mem => ?_, ih sortedTail⟩
      rcases mem_insert mem with rfl | mem
      · have le : head.1 ≤ key := String.not_lt.1 notLess
        exact Decidable.byContradiction fun notAbove =>
          differ (String.le_antisymm (String.not_lt.1 notAbove) le)
      · exact above _ mem

/-- Whatever pairs a map is made of, its keys increase. -/
theorem sorted_ofList (pairs : List (String × α)) : Sorted (ofList pairs) := by
  suffices ∀ entries : Entries α, Sorted entries →
      Sorted (pairs.foldl (fun entries pair => insert pair.1 pair.2 entries) entries) from
    this [] sorted_nil
  induction pairs with
  | nil => exact fun _ sorted => sorted
  | cons pair pairs ih => exact fun _ sorted => ih _ (sorted_insert sorted)

end Entries

/-! ### Members -/

namespace Members

variable {α : Type} [LT α] [DecidableLT α] [DecidableEq α]

/-- Put a member in its place in an increasing list, unless it is there already. -/
def insert (member : α) : List α → List α
  | [] => [member]
  | first :: rest =>
    if member < first then member :: first :: rest
    else if member = first then first :: rest
    else first :: insert member rest

/-- The members of a list in increasing order, each once. -/
def distinct (members : List α) : List α := members.foldr insert []

@[simp] theorem distinct_nil : distinct ([] : List α) = [] := rfl

@[simp] theorem distinct_cons (member : α) (members : List α) :
    distinct (member :: members) = insert member (distinct members) := rfl

@[simp] theorem mem_insert {member x : α} {members : List α} :
    x ∈ insert member members ↔ x = member ∨ x ∈ members := by
  induction members with
  | nil => simp [insert]
  | cons first rest ih => unfold insert; grind

/-- A list and its distinct members hold the same members. -/
@[simp] theorem mem_distinct {x : α} {members : List α} :
    x ∈ distinct members ↔ x ∈ members := by
  induction members with
  | nil => simp
  | cons member members ih => simp [ih]

end Members

end ItemExpr
