import ItemExpr.Number.Binary
import ItemExpr.Proofs.Placeholders.Run

/-! # The search for a free number

A name that cannot be its own placeholder gets the next number whose placeholder is free. The number
is looked for pass by pass, and each pass raises a counter that has room for so many numbers only
(`search`); so the search could go on for ever, or leave the room. On a table that a run has reached
it does neither. Whatever the counter has passed is the placeholder of some name, and different
numbers have different placeholders, so that the counter is never above the number of names
(`Consistent.le_length_names`) and one pass more than there are names is enough
(`search_ends_after_run`). -/

namespace ItemExpr.Placeholders

/-! ### Pass by pass -/

/-- How a search for a free number **halts** without one. -/
inductive Halt where
  /-- There is no pass left. -/
  | unfinished
  /-- The counter has no room for the next number. -/
  | overflow
deriving DecidableEq, Repr

/-- **Search** for a free number after `last`, with so many passes and a counter for the numbers
below a capacity. A pass raises the counter by one, and it is the last one if the placeholder of the
number is not taken. -/
def search (capacity : Nat) (taken : List String) : (passes last : Nat) → Except Halt Nat
  | 0, _ => .error .unfinished
  | passes + 1, last =>
    if capacity ≤ last + 1 then .error .overflow
    else if numbered (last + 1) ∈ taken then search capacity taken passes (last + 1)
    else .ok (last + 1)

/-- Give a name its placeholder, with a search if it needs a number. -/
def addNameBySearch (capacity passes : Nat) (table : Placeholders) (name : String) :
    Except Halt (String × Placeholders) :=
  match table.ofName? name with
  | some placeholder => .ok (placeholder, table)
  | none =>
    if isPlainName name ∧ readable name ∉ table.taken then
      .ok (readable name, table.bindName name (readable name))
    else do
      let number ← search capacity table.taken passes table.nameCounter
      .ok (numbered number, { table.bindName name (numbered number) with nameCounter := number })

/-- What a search finds: the first free number, if it has passes and room to get there. -/
theorem search_eq_ok_iff {capacity passes last number : Nat} {taken : List String} :
    search capacity taken passes last = .ok number ↔
      last < number ∧ number ≤ last + passes ∧ number < capacity ∧ numbered number ∉ taken ∧
        ∀ passed, last < passed → passed < number → numbered passed ∈ taken := by
  induction passes generalizing last with
  | zero =>
    refine iff_of_false nofun ?_
    rintro ⟨after, before, _⟩
    omega
  | succ passes ih =>
    rw [search]
    split
    · next full =>
      refine iff_of_false nofun ?_
      rintro ⟨after, _, room, _⟩
      omega
    · next room =>
      split
      · next mem =>
        rw [ih]
        constructor
        · rintro ⟨after, before, room', free, passed⟩
          refine ⟨by omega, by omega, room', free, fun other after' before' => ?_⟩
          by_cases next : other = last + 1
          · rw [next]
            exact mem
          · exact passed other (by omega) before'
        · rintro ⟨after, before, room', free, passed⟩
          -- The number of this pass is taken, and so it is not the one that is found.
          have differ : number ≠ last + 1 := fun same => free (same ▸ mem)
          exact ⟨by omega, by omega, room', free, fun other after' => passed other (by omega)⟩
      · next free =>
        rw [Except.ok.injEq]
        constructor
        · rintro rfl
          exact ⟨by omega, by omega, by omega, free, fun other after before => by omega⟩
        · rintro ⟨after, _, _, _, passed⟩
          by_contra differ
          exact free (passed (last + 1) (by omega) (by omega))

/-- A search that has passes and room enough finds the next free number. -/
theorem search_eq_nextFree {capacity passes last : Nat} {taken : List String}
    (enough : nextFree taken last ≤ last + passes) (room : nextFree taken last < capacity) :
    search capacity taken passes last = .ok (nextFree taken last) :=
  search_eq_ok_iff.2 ⟨lt_nextFree taken last, enough, room, numbered_nextFree_notMem taken last,
    fun _ after before => numbered_mem_of_lt_nextFree after before⟩

/-- A search that finds the next free number gives a name the placeholder that it gets. -/
theorem addNameBySearch_eq_addName {capacity passes : Nat} {table : Placeholders}
    (found : search capacity table.taken passes table.nameCounter =
      .ok (nextFree table.taken table.nameCounter)) (name : String) :
    table.addNameBySearch capacity passes name = .ok (table.addName name) := by
  rw [addNameBySearch, addName, found]
  cases table.ofName? name with
  | some placeholder => rfl
  | none =>
    dsimp only
    split <;> rfl

/-! ### How far the counter gets -/

/-- A placeholder is taken exactly if it stands for some name. -/
theorem mem_taken_iff {table : Placeholders} {placeholder : String} :
    placeholder ∈ table.taken ↔ ∃ name, table.name? placeholder = some name := by
  rw [taken, ← Entries.isSome_find?, Option.isSome_iff_exists]
  rfl

/-- A name that is added is one name more at most. -/
theorem length_names_addName_le (table : Placeholders) (name : String) :
    (table.addName name).2.names.length ≤ table.names.length + 1 := by
  rcases table.addName_cases name with ⟨_, _, added⟩ | ⟨_, _, _, _, _, _, _, added⟩
  · rw [added]
    exact Nat.le_succ _
  · rw [added]
    exact Nat.le_of_eq List.length_append

namespace Consistent

variable {table : Placeholders} (consistent : table.Consistent)

include consistent

/-- There are as many names as numbers in a row, from one on, whose placeholders are taken. -/
theorem le_length_names {last : Nat}
    (taken : ∀ number, 1 ≤ number → number ≤ last → numbered number ∈ table.taken) :
    last ≤ table.names.length := by
  have distinct : ((List.range' 1 last).map numbered).Nodup :=
    List.Nodup.map (fun _ _ => numbered_injective) List.nodup_range'
  have bound : (List.range' 1 last).map numbered ⊆ table.names.map Prod.snd := by
    intro placeholder mem
    obtain ⟨number, inside, rfl⟩ := List.mem_map.1 mem
    rw [List.mem_range'_1] at inside
    obtain ⟨name, found⟩ := mem_taken_iff.1 (taken number inside.1 (by omega))
    exact List.mem_map_of_mem (consistent.name?_iff.1 found)
  simpa using distinct.length_le_of_subset bound

/-- The counter is at most the number of names. -/
theorem nameCounter_le : table.nameCounter ≤ table.names.length :=
  consistent.le_length_names fun _ => consistent.passed

/-- The next free number is at most one more than the number of names. -/
theorem nextFree_le : nextFree table.taken table.nameCounter ≤ table.names.length + 1 := by
  have taken : ∀ number, 1 ≤ number → number ≤ nextFree table.taken table.nameCounter - 1 →
      numbered number ∈ table.taken := by
    intro number positive before
    -- A number below the free one was passed earlier, or is passed now.
    by_cases early : number ≤ table.nameCounter
    · exact consistent.passed positive early
    · have late : table.nameCounter < number := by omega
      have below : number < nextFree table.taken table.nameCounter := by omega
      exact numbered_mem_of_lt_nextFree late below
  have bound := consistent.le_length_names taken
  omega

/-- One pass more than there are names is enough for a search, and so is room for as many. -/
theorem search_eq_ok {capacity passes : Nat} (enough : table.names.length + 1 ≤ passes)
    (room : table.names.length + 1 < capacity) :
    search capacity table.taken passes table.nameCounter =
      .ok (nextFree table.taken table.nameCounter) := by
  have bound := consistent.nextFree_le
  exact search_eq_nextFree (by omega) (by omega)

end Consistent

/-- **The search for a number always ends.** On every table that a run has reached, whatever was
refused on the way, the numbers up to the counter are taken by names, so that the counter is at most
the number of names. With one pass more than there are names, and room for as many, a search finds a
number whose placeholder no name has, and so every name gets its placeholder. A counter of 64 bits
has this room as long as there are fewer names than its greatest number, and still holds what it is
raised to. -/
theorem search_ends_after_run (settings : Settings) (tasks : List Task) :
    let table := (empty settings).run tasks
    (∀ number, 1 ≤ number → number ≤ table.nameCounter →
      ∃ name, table.name? (numbered number) = some name) ∧
    table.nameCounter ≤ table.names.length ∧
    (∀ capacity passes, table.names.length + 1 < capacity → table.names.length + 1 ≤ passes →
      (∃ number, search capacity table.taken passes table.nameCounter = .ok number ∧
        table.nameCounter < number ∧ number ≤ table.names.length + 1 ∧
        ∀ name, table.ofName? name ≠ some (numbered number)) ∧
      ∀ name, table.addNameBySearch capacity passes name = .ok (table.addName name)) ∧
    (table.names.length < Number.wordBound - 1 → ∀ name,
      table.addNameBySearch Number.wordBound (table.names.length + 1) name =
        .ok (table.addName name) ∧
      (table.addName name).2.nameCounter < Number.wordBound) := by
  intro table
  have consistent : table.Consistent := (consistent_empty settings).run tasks
  refine ⟨?passed, consistent.nameCounter_le, ?ends, ?word⟩
  case passed =>
    intro number positive small
    exact mem_taken_iff.1 (consistent.passed positive small)
  case ends =>
    intro capacity passes room enough
    have found := consistent.search_eq_ok enough room
    refine ⟨⟨_, found, lt_nextFree _ _, consistent.nextFree_le, ?_⟩,
      addNameBySearch_eq_addName found⟩
    intro name held
    exact numbered_nextFree_notMem table.taken table.nameCounter
      (mem_taken_iff.2 ⟨name, consistent.ofName?_iff_name?.1 held⟩)
  case word =>
    intro few name
    have room : table.names.length + 1 < Number.wordBound := by omega
    refine ⟨addNameBySearch_eq_addName (consistent.search_eq_ok (Nat.le_refl _) room) name, ?_⟩
    calc (table.addName name).2.nameCounter
        ≤ (table.addName name).2.names.length := (consistent.register (.name name)).nameCounter_le
      _ ≤ table.names.length + 1 := table.length_names_addName_le name
      _ < Number.wordBound := room

/-- The names `n1` and `n3` have their placeholders before the counter gets to these numbers, and it
passes over both. For the second name with a blank it takes two passes and room up to four. -/
example :
    let table := (empty {}).run
      [.name "n1", .name "first name", .path "a[x]", .name "n3"]
    table.nameCounter = 2 ∧ table.names.length = 3 ∧
      search 5 table.taken 1 table.nameCounter = .error .unfinished ∧
      search 4 table.taken 2 table.nameCounter = .error .overflow ∧
      search 5 table.taken 2 table.nameCounter = .ok 4 ∧
      (table.addName "last name").1 = "#n4" := by
  decide +kernel

end ItemExpr.Placeholders
