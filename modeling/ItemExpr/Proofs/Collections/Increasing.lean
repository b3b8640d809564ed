import ItemExpr.Collections
import Mathlib.Data.List.Sort
import Mathlib.Tactic.SplitIfs

/-! # Increasing collections

The distinct members of a list increase strictly (`Members.pairwise_distinct`), so that they depend
on nothing but what the members are: lists with the same members, in whatever order and however
often, have the same distinct members (`Members.distinct_eq_iff`).

The entries of a map are determined by what its keys are and what each of them has: as a list of
pairs they may come in any order, and `Entries.ofList` brings pairs of distinct keys into theirs
(`Entries.mem_ofList`). -/

namespace ItemExpr

/-! ### Members -/

namespace Members

variable {α : Type} [LT α] [DecidableLT α] [DecidableEq α]
  [Trans (α := α) (· < ·) (· < ·) (· < ·)] [Std.Trichotomous (α := α) (· < ·)]

/-- An increasing list stays so when a member is put in its place. -/
theorem pairwise_insert {member : α} {members : List α}
    (increasing : members.Pairwise (· < ·)) : (insert member members).Pairwise (· < ·) := by
  induction members with
  | nil => simp [insert]
  | cons first rest ih =>
    obtain ⟨above, increasingRest⟩ := List.pairwise_cons.1 increasing
    unfold insert
    split
    · next less =>
      refine List.pairwise_cons.2 ⟨fun x mem => ?_, increasing⟩
      rcases List.mem_cons.1 mem with rfl | mem
      · exact less
      · exact Trans.trans less (above x mem)
    split
    · exact increasing
    · next notLess differ =>
      refine List.pairwise_cons.2 ⟨fun x mem => ?_, ih increasingRest⟩
      rcases mem_insert.1 mem with rfl | mem
      · by_contra notAbove
        exact differ (Std.Trichotomous.trichotomous _ _ notLess notAbove)
      · exact above x mem

/-- Distinct members increase strictly. -/
theorem pairwise_distinct (members : List α) : (distinct members).Pairwise (· < ·) := by
  induction members with
  | nil => exact List.Pairwise.nil
  | cons member members ih => exact pairwise_insert ih

/-- **Distinct members are a set**: they are the same exactly if the members are. -/
theorem distinct_eq_iff [Std.Asymm (α := α) (· < ·)] {a b : List α} :
    distinct a = distinct b ↔ ∀ x, x ∈ a ↔ x ∈ b := by
  constructor
  · intro same x
    have known : x ∈ distinct a ↔ x ∈ distinct b := by rw [same]
    rw [mem_distinct, mem_distinct] at known
    exact known
  · intro same
    have members : ∀ x, x ∈ distinct a ↔ x ∈ distinct b := by
      intro x
      rw [mem_distinct, mem_distinct, same x]
    exact (pairwise_distinct a).eq_of_mem_iff (pairwise_distinct b) members

end Members

/-! ### Entries -/

namespace Entries

variable {α β : Type}

/-- Keys that increase are distinct. -/
theorem Sorted.nodup_keys {entries : Entries α} (sorted : Sorted entries) :
    (keys entries).Nodup := by
  refine List.Pairwise.map Prod.fst (fun first second less => ?_) sorted
  intro same
  rw [same] at less
  exact String.lt_irrefl _ less

/-- Among distinct keys, the value of a key is what it is paired with. -/
theorem find?_eq_some_iff {key : String} {value : α} {entries : Entries α}
    (distinct : (keys entries).Nodup) :
    find? key entries = some value ↔ (key, value) ∈ entries := by
  rw [find?, Option.map_eq_some_iff]
  constructor
  · rintro ⟨⟨known, _⟩, found, rfl⟩
    have same : known = key := by simpa using List.find?_some found
    exact same ▸ List.mem_of_find?_eq_some found
  · intro mem
    have some : (List.find? (fun entry => entry.1 = key) entries).isSome = true :=
      List.find?_isSome.2 ⟨_, mem, by simp⟩
    obtain ⟨⟨known, other⟩, found⟩ := Option.isSome_iff_exists.1 some
    have same : known = key := by simpa using List.find?_some found
    -- No other pair has this key.
    have only := List.inj_on_of_nodup_map distinct (List.mem_of_find?_eq_some found) mem same
    exact ⟨_, found, congrArg Prod.snd only⟩

/-- The last of the pairs with a key is the one that counts. -/
theorem find?_ofList (key : String) (pairs : List (String × α)) :
    find? key (ofList pairs) = find? key pairs.reverse := by
  have after : ∀ entries : Entries α,
      find? key (pairs.foldl (fun entries pair => insert pair.1 pair.2 entries) entries) =
        (find? key pairs.reverse).or (find? key entries) := by
    induction pairs with
    | nil => simp [find?]
    | cons pair pairs ih =>
      intro entries
      have last : find? key (pair :: pairs).reverse =
          (find? key pairs.reverse).or (if key = pair.1 then some pair.2 else none) := by
        simp only [find?, List.reverse_cons, List.find?_append, Option.map_or]
        by_cases same : pair.1 = key
        · simp [same]
        · simp [same, Ne.symm same]
      rw [List.foldl_cons, ih, find?_insert, last, Option.or_assoc]
      by_cases same : key = pair.1 <;> simp [same]
  rw [ofList, after]
  simp [find?]

/-- The keys of a map are those of the pairs that it is made of. -/
theorem mem_keys_ofList {key : String} {pairs : List (String × α)} :
    key ∈ keys (ofList pairs) ↔ key ∈ keys pairs := by
  rw [← isSome_find?, find?_ofList, isSome_find?, keys, keys, List.map_reverse, List.mem_reverse]

/-- The entries of a map are the pairs that count. -/
theorem mem_ofList_iff_find? {pairs : List (String × α)} {entry : String × α} :
    entry ∈ ofList pairs ↔ find? entry.1 pairs.reverse = some entry.2 := by
  rw [← find?_ofList]
  exact (find?_eq_some_iff (sorted_ofList pairs).nodup_keys).symm

/-- An entry of a map is one of the pairs that it is made of. -/
theorem mem_of_mem_ofList {pairs : List (String × α)} {entry : String × α}
    (mem : entry ∈ ofList pairs) : entry ∈ pairs := by
  have found := mem_ofList_iff_find?.1 mem
  rw [find?, Option.map_eq_some_iff] at found
  obtain ⟨pair, found, same⟩ := found
  have known : pair.1 = entry.1 := by simpa using List.find?_some found
  rw [← Prod.ext known same]
  exact List.mem_reverse.1 (List.mem_of_find?_eq_some found)

/-- Pairs of distinct keys are the entries of the map that they make. -/
theorem mem_ofList {pairs : List (String × α)} (distinct : (keys pairs).Nodup)
    {entry : String × α} : entry ∈ ofList pairs ↔ entry ∈ pairs := by
  have reversed : (keys pairs.reverse).Nodup := by
    rw [keys, List.map_reverse, List.nodup_reverse]
    exact distinct
  rw [mem_ofList_iff_find?, find?_eq_some_iff reversed, List.mem_reverse]

/-- An entry with a changed value is put where the entry is. -/
theorem insert_map (change : α → β) (key : String) (value : α) (entries : Entries α) :
    insert key (change value) (entries.map fun entry => (entry.1, change entry.2)) =
      (insert key value entries).map fun entry => (entry.1, change entry.2) := by
  induction entries with
  | nil => rfl
  | cons entry entries ih =>
    simp only [List.map_cons, insert, ih]
    split_ifs <;> rfl

/-- A map whose values are changed is the map of the pairs with their values changed. -/
theorem ofList_map (change : α → β) (pairs : List (String × α)) :
    ofList (pairs.map fun pair => (pair.1, change pair.2)) =
      (ofList pairs).map fun entry => (entry.1, change entry.2) := by
  have after : ∀ entries : Entries α,
      (pairs.map fun pair => (pair.1, change pair.2)).foldl
          (fun entries pair => insert pair.1 pair.2 entries)
          (entries.map fun entry => (entry.1, change entry.2)) =
        (pairs.foldl (fun entries pair => insert pair.1 pair.2 entries) entries).map
          fun entry => (entry.1, change entry.2) := by
    induction pairs with
    | nil => exact fun _ => rfl
    | cons pair pairs ih =>
      intro entries
      rw [List.map_cons, List.foldl_cons, List.foldl_cons, insert_map change, ih]
  exact after []

/-- Two sorted lists with the same entries are the same. -/
theorem Sorted.eq_of_mem_iff {first second : Entries α} (sorted : Sorted first)
    (sorted' : Sorted second) (same : ∀ entry, entry ∈ first ↔ entry ∈ second) :
    first = second := by
  have : Std.Irrefl fun a b : String × α => a.1 < b.1 := ⟨fun a => String.lt_irrefl a.1⟩
  have : Std.Antisymm fun a b : String × α => a.1 < b.1 :=
    ⟨fun a b less less' => absurd less' (String.lt_asymm less)⟩
  exact List.Pairwise.eq_of_mem_iff sorted sorted' same

/-- Sorted entries are the map that they make. -/
theorem ofList_of_sorted {entries : Entries α} (sorted : Sorted entries) :
    ofList entries = entries :=
  (sorted_ofList entries).eq_of_mem_iff sorted fun _ => mem_ofList sorted.nodup_keys

/-- The keys of two maps are the same list if they are the same keys. -/
theorem keys_eq_of_mem_iff {first : Entries α} {second : Entries β} (sorted : Sorted first)
    (sorted' : Sorted second) (same : ∀ key, key ∈ keys first ↔ key ∈ keys second) :
    keys first = keys second := by
  have increasing : (keys first).Pairwise (· < ·) :=
    List.Pairwise.map Prod.fst (fun _ _ less => less) sorted
  have increasing' : (keys second).Pairwise (· < ·) :=
    List.Pairwise.map Prod.fst (fun _ _ less => less) sorted'
  exact increasing.eq_of_mem_iff increasing' same

/-! ### Entries in any order -/

/-- Whether entries are those of a map **in any order**. -/
def Lists (listing map : Entries α) : Prop := Sorted map ∧ List.Perm listing map

theorem Sorted.lists {map : Entries α} (sorted : Sorted map) : Lists map map :=
  ⟨sorted, List.Perm.refl map⟩

/-- The entries of a map make it in any order. -/
theorem Lists.ofList_eq {listing map : Entries α} (lists : Lists listing map) :
    ofList listing = map := by
  obtain ⟨sorted, same⟩ := lists
  have distinct : (keys listing).Nodup := (same.map Prod.fst).nodup_iff.2 sorted.nodup_keys
  exact (sorted_ofList listing).eq_of_mem_iff sorted fun entry =>
    (mem_ofList distinct).trans same.mem_iff

/-! ### Agreement entry by entry -/

section Agreement

variable {agrees : α → β → Prop} {first : Entries α} {second : Entries β}

/-- Maps that agree entry by entry have the same keys. -/
theorem keys_eq_of_forall₂
    (each : List.Forall₂ (fun a b => a.1 = b.1 ∧ agrees a.2 b.2) first second) :
    keys first = keys second := by
  rw [← List.forall₂_eq_eq_eq, keys, keys, List.forall₂_map_left_iff, List.forall₂_map_right_iff]
  exact each.imp fun _ _ both => both.1

/-- In maps that agree entry by entry, what a key has in one agrees with what it has in the
other. -/
theorem agrees_of_forall₂ (sorted : Sorted first) (sorted' : Sorted second)
    (each : List.Forall₂ (fun a b => a.1 = b.1 ∧ agrees a.2 b.2) first second)
    {key : String} {a : α} {b : β} (mem : (key, a) ∈ first) (mem' : (key, b) ∈ second) :
    agrees a b := by
  induction each with
  | nil => cases mem
  | @cons entry entry' entries entries' head _ ih =>
    obtain ⟨above, sortedTail⟩ := List.pairwise_cons.1 sorted
    obtain ⟨above', sortedTail'⟩ := List.pairwise_cons.1 sorted'
    -- An entry of the one key cannot stand at the front of one map and behind in the other.
    rcases List.mem_cons.1 mem with rfl | mem
    · rcases List.mem_cons.1 mem' with rfl | mem'
      · exact head.2
      · have less := above' _ mem'
        rw [← head.1] at less
        exact absurd less (String.lt_irrefl _)
    · rcases List.mem_cons.1 mem' with rfl | mem'
      · have less := above _ mem
        rw [head.1] at less
        exact absurd less (String.lt_irrefl _)
      · exact ih sortedTail sortedTail' mem mem'

/-- Maps with one list of keys agree entry by entry if what each key has in them agrees. -/
theorem forall₂_of_keys_eq (lists : keys first = keys second)
    (each : ∀ key a b, (key, a) ∈ first → (key, b) ∈ second → agrees a b) :
    List.Forall₂ (fun a b => a.1 = b.1 ∧ agrees a.2 b.2) first second := by
  induction first generalizing second with
  | nil =>
    cases second with
    | nil => exact .nil
    | cons => cases lists
  | cons entry entries ih =>
    cases second with
    | nil => cases lists
    | cons entry' entries' =>
      obtain ⟨same, rest⟩ := List.cons.inj lists
      obtain ⟨key, a⟩ := entry
      obtain ⟨key', b⟩ := entry'
      have same : key = key' := same
      subst same
      refine .cons ⟨rfl, each key a b List.mem_cons_self List.mem_cons_self⟩ (ih rest ?_)
      intro key a b mem mem'
      exact each key a b (List.mem_cons_of_mem _ mem) (List.mem_cons_of_mem _ mem')

end Agreement

/-- Two maps agree **entry by entry** exactly if they have the same keys and what each key has in
one of them agrees with what it has in the other. -/
theorem forall₂_iff_of_sorted (agrees : α → β → Prop) {first : Entries α} {second : Entries β}
    (sorted : Sorted first) (sorted' : Sorted second) :
    List.Forall₂ (fun a b => a.1 = b.1 ∧ agrees a.2 b.2) first second ↔
      (∀ key, key ∈ keys first ↔ key ∈ keys second) ∧
        ∀ key a b, (key, a) ∈ first → (key, b) ∈ second → agrees a b := by
  constructor
  · intro each
    refine ⟨fun key => by rw [keys_eq_of_forall₂ each], fun key a b mem mem' => ?_⟩
    exact agrees_of_forall₂ sorted sorted' each mem mem'
  · rintro ⟨sameKeys, each⟩
    exact forall₂_of_keys_eq (keys_eq_of_mem_iff sorted sorted' sameKeys) each

end Entries

end ItemExpr
