import ItemExpr.Proofs.Formula.Parser
import ItemExpr.Proofs.Update.Entry
import ItemExpr.Proofs.Update.Tokens

/-! # The grammar of updates

`Update.parse` reads the text of an update by its grammar alone: each part is its word and some
entries with commas between them. A comma within a call belongs to the call, and only those outside
of all calls end an entry. Which entries a part has is up to its word.

The text of changes by parts is read back as the documented entries of the changes
(`Update.parse_partsText`), and so is the text behind the word of each part on its own
(`Update.parseEntries_text`). -/

namespace ItemExpr

namespace Grammar

/-! ### Reading tokens -/

/-- A source: a placeholder of a value, a path with a value to fall back on, or a path. -/
def source : List Token → Option (Source String × List Token)
  | .value placeholder :: rest => some (.value placeholder, rest)
  | .function .ifNotExists :: .opening :: rest =>
    match closed (pathAndTerm rest) with
    | some ((target, .value fallback), rest) => some (.reference target (some fallback), rest)
    | _ => none
  | tokens => (path tokens).map fun (target, rest) => (.ofPath target, rest)

/-- A source, a comma and a source. -/
def twoSources (tokens : List Token) : Option ((Source String × Source String) × List Token) :=
  match source tokens with
  | some (left, .comma :: rest) => (source rest).map fun (right, rest) => ((left, right), rest)
  | _ => none

/-- A source, with a sign and another source behind it or not. -/
def sumOrSource (tokens : List Token) : Option (Update.Assigned String × List Token) :=
  match source tokens with
  | some (left, .plus :: rest) =>
    (source rest).map fun (right, rest) => (.combined .sum left right, rest)
  | some (left, .minus :: rest) =>
    (source rest).map fun (right, rest) => (.combined .difference left right, rest)
  | some (only, rest) => some (.just only, rest)
  | none => none

/-- What stands behind an equals sign. -/
def assigned : List Token → Option (Update.Assigned String × List Token)
  | .function .listAppend :: .opening :: rest =>
    (closed (twoSources rest)).map fun (sources, rest) =>
      (.combined .joined sources.1 sources.2, rest)
  | tokens => sumOrSource tokens

/-- What stands behind the target of an entry of a part. -/
def entryOn (target : Path) : UpdatePart → List Token → Option (Update.Entry String × List Token)
  | .set, .comparison .eq :: rest =>
    (assigned rest).map fun (assigned, rest) => (.assign target assigned, rest)
  | .set, _ => none
  | .remove, rest => some (.alone target, rest)
  | .add, rest | .delete, rest =>
    (source rest).map fun (source, rest) => (.pair target source, rest)

/-- An entry of a part. -/
def entry (part : UpdatePart) (tokens : List Token) : Option (Update.Entry String × List Token) :=
  match path tokens with
  | some (target, rest) => entryOn target part rest
  | none => none

/-- The parts of an update, up to the end. -/
def parts (tokens : List Token) : Option (List (UpdatePart × List (Update.Entry String))) :=
  match tokens with
  | [] => some []
  | .part part :: body =>
    match separated .comma (entry part) body with
    | none => none
    | some (entries, rest) =>
      if rest.length ≤ body.length then (parts rest).map ((part, entries) :: ·) else none
  | _ => none
termination_by tokens.length

end Grammar

namespace Update

/-- The **parts of a text** with their entries, in order. -/
def parse (text : String) : Option (List (UpdatePart × List (Entry String))) :=
  match lex text.toList with
  | none => none
  | some tokens => Grammar.parts tokens

/-- The **entries of a text** that stands behind the word of a part. -/
def parseEntries (part : UpdatePart) (text : String) : Option (List (Entry String)) :=
  match lex text.toList with
  | none => none
  | some tokens =>
    match Grammar.separated .comma (Grammar.entry part) tokens with
    | some (entries, []) => some entries
    | _ => none

/-! ### Tokens of entries -/

/-- The tokens of what is assigned. -/
def Assigned.tokens : Assigned String → List Token
  | .just source => source.tokens
  | .combined .sum left right => left.tokens ++ .plus :: right.tokens
  | .combined .difference left right => left.tokens ++ .minus :: right.tokens
  | .combined .joined left right => Function.listAppend.tokens [left.tokens, right.tokens]

/-- The tokens of an entry. -/
def Entry.tokens : Entry String → List Token
  | .assign target assigned => target.tokens ++ .comparison .eq :: assigned.tokens
  | .alone target => target.tokens
  | .pair target source => target.tokens ++ source.tokens

end Update

/-- A change has the tokens of its documented entry. -/
theorem Change.tokens_entry (change : Change String) : change.entry.tokens = change.tokens := by
  cases change with
  | remove target => rfl
  | change kind target source => cases kind <;> rfl

namespace Grammar

/-! ### Reading back -/

/-- Whether no entry goes on in some tokens. -/
def StopsEntry (rest : List Token) : Prop :=
  Stops rest ∧ rest.head? ≠ some .plus ∧ rest.head? ≠ some .minus

theorem stopsEntry_nil : StopsEntry [] := ⟨⟨by simp, by simp⟩, by simp, by simp⟩

theorem stopsEntry_comma (rest : List Token) : StopsEntry (.comma :: rest) :=
  ⟨stops_cons (by simp), by simp, by simp⟩

theorem stopsEntry_part (part : UpdatePart) (rest : List Token) : StopsEntry (.part part :: rest) :=
  ⟨stops_cons (by simp), by simp, by simp⟩

/-- No path goes on in a source. -/
theorem stops_source (origin : Source String) (rest : List Token) :
    Stops (origin.tokens ++ rest) := by
  cases origin with
  | value placeholder => exact stops_cons (by simp)
  | reference target fallback => cases fallback <;> exact stops_cons (by simp)

/-- A source is read back. -/
theorem source_tokens (origin : Source String) (rest : List Token) (stop : Stops rest) :
    source (origin.tokens ++ rest) = some (origin, rest) := by
  cases origin with
  | value placeholder => rfl
  | reference target fallback =>
    cases fallback with
    | none =>
      have read := path_tokens target rest stop
      rw [Source.tokens]
      rw [Path.tokens, List.cons_append] at read ⊢
      rw [source, read]
      · rfl
      all_goals simp
    | some fallback =>
      have read := pathAndTerm_tokens target (.value fallback) (.closing :: rest)
        (stops_cons (by simp))
      have shape : (Source.reference target (some fallback)).tokens ++ rest =
          .function .ifNotExists :: .opening ::
            (target.tokens ++ .comma :: ((Term.value fallback).tokens ++ .closing :: rest)) := by
        simp [Source.tokens, Function.tokens, Term.tokens, List.intercalate_cons_cons]
      rw [shape, source, read]
      rfl

/-- What starts with a source is no call that joins lists. -/
theorem assigned_source_tokens (origin : Source String) (rest : List Token) :
    assigned (origin.tokens ++ rest) = sumOrSource (origin.tokens ++ rest) := by
  cases origin with
  | value placeholder => rfl
  | reference target fallback => cases fallback <;> rfl

/-- What is assigned is read back. -/
theorem assigned_tokens (right : Update.Assigned String) {rest : List Token}
    (stop : StopsEntry rest) : assigned (right.tokens ++ rest) = some (right, rest) := by
  cases right with
  | just only =>
    rw [Update.Assigned.tokens, assigned_source_tokens, sumOrSource,
      source_tokens only rest stop.1]
    -- Neither sign goes on behind the source.
    split
    · next same =>
      cases same
      exact absurd rfl stop.2.1
    · next same =>
      cases same
      exact absurd rfl stop.2.2
    · next same =>
      cases same
      rfl
    · next same => cases same
  | combined operation left other =>
    have read' := source_tokens other rest stop.1
    cases operation with
    | sum =>
      have read := source_tokens left (.plus :: (other.tokens ++ rest)) (stops_cons (by simp))
      rw [Update.Assigned.tokens, List.append_assoc, List.cons_append, assigned_source_tokens,
        sumOrSource, read]
      simp only [read', Option.map_some]
    | difference =>
      have read := source_tokens left (.minus :: (other.tokens ++ rest)) (stops_cons (by simp))
      rw [Update.Assigned.tokens, List.append_assoc, List.cons_append, assigned_source_tokens,
        sumOrSource, read]
      simp only [read', Option.map_some]
    | joined =>
      have read := source_tokens left (.comma :: (other.tokens ++ .closing :: rest))
        (stops_cons (by simp))
      have read'' := source_tokens other (.closing :: rest) (stops_cons (by simp))
      have shape : (Update.Assigned.combined .joined left other).tokens ++ rest =
          .function .listAppend :: .opening ::
            (left.tokens ++ .comma :: (other.tokens ++ .closing :: rest)) := by
        simp [Update.Assigned.tokens, Function.tokens, List.intercalate_cons_cons]
      rw [shape, assigned, twoSources, read]
      simp only [read'', Option.map_some, closed]

/-- An assignment is read back in the part of assignments. -/
theorem entry_assign_tokens (target : Path) (right : Update.Assigned String) {rest : List Token}
    (stop : StopsEntry rest) :
    entry .set ((Update.Entry.assign target right).tokens ++ rest) =
      some (.assign target right, rest) := by
  have read := path_tokens target (.comparison .eq :: (right.tokens ++ rest))
    (stops_cons (by simp))
  rw [Update.Entry.tokens, List.append_assoc, List.cons_append, entry, read]
  simp only [entryOn, assigned_tokens right stop, Option.map_some]

/-- The documented entry of a change is read back in the part of the change. -/
theorem entry_tokens (change : Change String) {rest : List Token} (stop : StopsEntry rest) :
    entry change.part (change.entry.tokens ++ rest) = some (change.entry, rest) := by
  cases change with
  | remove target =>
    rw [Change.entry, Update.Entry.tokens, entry, path_tokens target rest stop.1]
    rfl
  | change kind target origin =>
    cases kind with
    | set | add | subtract | append | prepend => exact entry_assign_tokens target _ stop
    | addToSet | deleteFromSet =>
      have read := path_tokens target (origin.tokens ++ rest) (stops_source origin rest)
      rw [Change.entry, Update.Entry.tokens, List.append_assoc, entry, read]
      simp only [Change.part, Change.Kind.part, entryOn, source_tokens origin rest stop.1,
        Option.map_some]

/-- The changes of one part are read back as their entries. -/
theorem separated_entries {part : UpdatePart} {changes : List (Change String)}
    (nonempty : changes ≠ []) (within : ∀ change ∈ changes, change.part = part)
    {rest : List Token} (stop : StopsEntry rest) (last : rest.head? ≠ some .comma) :
    separated .comma (entry part)
        ([Token.comma].intercalate (changes.map Change.tokens) ++ rest) =
      some (changes.map Change.entry, rest) := by
  have shape : changes.map Change.tokens =
      (changes.map Change.entry).map Update.Entry.tokens := by
    rw [List.map_map]
    exact List.map_congr_left fun change _ => change.tokens_entry.symm
  have reads : ∀ entry ∈ changes.map Change.entry, ∀ rest, StopsEntry rest →
      Grammar.entry part (entry.tokens ++ rest) = some (entry, rest) := by
    rw [List.forall_mem_map]
    intro change mem rest stop
    rw [← within change mem]
    exact entry_tokens change stop
  rw [shape]
  exact separated_intercalate stopsEntry_comma (by simpa using nonempty) reads stop last

end Grammar

namespace Update

/-! ### Parts -/

/-- The changes of a part. -/
def changesOf {ν : Type} (changes : List (Change ν)) (part : UpdatePart) : List (Change ν) :=
  changes.filter fun change => change.part = part

theorem part_of_mem_changesOf {changes : List (Change String)} {part : UpdatePart} :
    ∀ change ∈ changesOf changes part, change.part = part :=
  fun _ mem => of_decide_eq_true (List.mem_filter.1 mem).2

theorem changesOf_ne_nil {changes : List (Change String)} {part : UpdatePart}
    (mem : part ∈ partsOf changes) : changesOf changes part ≠ [] := by
  obtain ⟨change, mem', same⟩ := List.any_eq_true.1 (List.mem_filter.1 mem).2
  exact List.ne_nil_of_mem (List.mem_filter.2 ⟨mem', same⟩)

/-- The tokens of some parts of an update, one behind the other. -/
def allTokens (changes : List (Change String)) (parts : List UpdatePart) : List Token :=
  ([] : List Token).intercalate (parts.map (partTokens changes))

theorem allTokens_cons (changes : List (Change String)) (part : UpdatePart)
    (parts : List UpdatePart) :
    allTokens changes (part :: parts) =
      .part part :: ([Token.comma].intercalate ((changesOf changes part).map Change.tokens) ++
        allTokens changes parts) := by
  cases parts with
  | nil => simp [allTokens, partTokens, changesOf]
  | cons next parts => simp [allTokens, partTokens, changesOf, List.intercalate_cons_cons]

/-- The entries before some parts end there. -/
theorem stopsEntry_allTokens (changes : List (Change String)) (parts : List UpdatePart) :
    Grammar.StopsEntry (allTokens changes parts) ∧
      (allTokens changes parts).head? ≠ some .comma := by
  cases parts with
  | nil => exact ⟨Grammar.stopsEntry_nil, by simp [allTokens]⟩
  | cons part parts =>
    rw [allTokens_cons]
    exact ⟨Grammar.stopsEntry_part part _, by simp⟩

/-- Parts are read back as the entries of their changes. -/
theorem parts_tokens {changes : List (Change String)} {parts : List UpdatePart}
    (used : ∀ part ∈ parts, part ∈ partsOf changes) :
    Grammar.parts (allTokens changes parts) =
      some (parts.map fun part => (part, (changesOf changes part).map Change.entry)) := by
  induction parts with
  | nil =>
    rw [allTokens, List.map_nil, List.intercalate_nil, Grammar.parts]
    rfl
  | cons part parts ih =>
    rw [List.forall_mem_cons] at used
    obtain ⟨stop, last⟩ := stopsEntry_allTokens changes parts
    have entries := Grammar.separated_entries (changesOf_ne_nil used.1) part_of_mem_changesOf
      stop last
    have shorter : (allTokens changes parts).length ≤
        ([Token.comma].intercalate ((changesOf changes part).map Change.tokens) ++
          allTokens changes parts).length := by
      rw [List.length_append]
      exact Nat.le_add_left _ _
    rw [allTokens_cons, Grammar.parts, entries]
    simp only [if_pos shorter, ih used.2, Option.map_some, List.map_cons]

/-- **The text of changes by parts is read back** as the documented entries of the changes. -/
theorem parse_partsText {changes : List (Change String)}
    (legible : ∀ mention ∈ changes.flatMap Change.mentions, mention.Legible) :
    parse (partsText (changes.map fun change => (change.part, change.text))) =
      some ((partsOf changes).map fun part =>
        (part, (changesOf changes part).map Change.entry)) := by
  rw [parse, (lexes_partsText legible).lex_eq]
  exact parts_tokens fun _ mem => mem

/-- **What stands behind the word of a part is read back** as the entries of its changes. -/
theorem parseEntries_text {changes : List (Change String)} {part : UpdatePart}
    (legible : ∀ mention ∈ changes.flatMap Change.mentions, mention.Legible)
    (used : part ∈ partsOf changes) :
    parseEntries part (", ".intercalate ((changesOf changes part).map Change.text)) =
      some ((changesOf changes part).map Change.entry) := by
  have lexes : Lexes (", ".intercalate ((changesOf changes part).map Change.text))
      ([Token.comma].intercalate ((changesOf changes part).map Change.tokens)) := by
    refine separates_comma.intercalate fun change mem => Change.lexes_text fun mention mem' => ?_
    exact legible mention (List.mem_flatMap.2 ⟨change, List.mem_of_mem_filter mem, mem'⟩)
  have entries := Grammar.separated_entries (changesOf_ne_nil used) part_of_mem_changesOf
    Grammar.stopsEntry_nil (by simp)
  rw [List.append_nil] at entries
  rw [parseEntries, lexes.lex_eq]
  simp only [entries]

end Update

end ItemExpr
