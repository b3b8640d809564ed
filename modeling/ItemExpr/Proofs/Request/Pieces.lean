import ItemExpr.Proofs.Request.Additions
import Mathlib.Data.List.Induction

/-! # Clauses in pieces

The clauses of a request are built by one `Addition` after another, in any order. What becomes of a
clause depends on its own additions and their order only (`Clauses.ofAdditions_congr`), and it
could as well have been given all at once: its conditions in one group, its actions in one update,
its paths in one projection. The conditions of a clause are joined one by one, which makes another
tree than the one group of all; but both trees have one normal form, and nothing but that is
compiled (`Clauses.compile_in_pieces`). -/

namespace ItemExpr

open Compile

/-! ### Additions -/

/-- An **addition** to the clauses of a request. -/
inductive Addition where
  /-- A key condition. -/
  | keyCondition (condition : Condition)
  /-- A filter. -/
  | filter (condition : Condition)
  /-- A condition. -/
  | condition (condition : Condition)
  /-- An update. -/
  | update (update : Update)
  /-- Paths of the projection. -/
  | projection (paths : List String)
deriving Repr

namespace Addition

/-- The clause that an addition is for. -/
def clause : Addition → Clause
  | .keyCondition _ => .keyCondition
  | .filter _ => .filter
  | .condition _ => .condition
  | .update _ => .update
  | .projection _ => .projection

/-- The condition that is added, if it is one. -/
def condition? : Addition → Option Condition
  | .keyCondition added | .filter added | .condition added => some added
  | .update _ | .projection _ => none

/-- The update that is added, if it is one. -/
def update? : Addition → Option Update
  | .update added => some added
  | _ => none

/-- The paths that are added, if they are some. -/
def paths? : Addition → Option (List String)
  | .projection paths => some paths
  | _ => none

/-! ### The pieces of a clause -/

/-- The **pieces of a clause**: the additions for it, in order. -/
def pieces (clause : Clause) (additions : List Addition) : List Addition :=
  additions.filter fun addition => addition.clause = clause

/-- The conditions that are added to a clause, in order. -/
def conditionsOf (clause : Clause) (additions : List Addition) : List Condition :=
  (pieces clause additions).filterMap condition?

/-- The updates that are added, in order. -/
def updatesOf (additions : List Addition) : List Update :=
  (pieces .update additions).filterMap update?

/-- The lists of paths that are added, in order. -/
def pathsOf (additions : List Addition) : List (List String) :=
  (pieces .projection additions).filterMap paths?

/-- One group of all conditions, if there are any. -/
def grouped : List Condition → List Condition
  | [] => []
  | conditions => [.all conditions]

/-- One list of all lists, if there are any. -/
def concatenated {α : Type} : List (List α) → List (List α)
  | [] => []
  | lists => [lists.flatten]

/-- Additions **gathered** into one for each clause: all conditions of a clause in one group, the
actions of all updates in one update and all paths in one projection. -/
def gathered (additions : List Addition) : List Addition :=
  (grouped (conditionsOf .keyCondition additions)).map keyCondition ++
    ((grouped (conditionsOf .filter additions)).map filter ++
      ((grouped (conditionsOf .condition additions)).map condition ++
        ((concatenated (updatesOf additions)).map update ++
          (concatenated (pathsOf additions)).map projection)))

/-- The pieces of one more addition. -/
theorem pieces_concat (clause : Clause) (additions : List Addition) (addition : Addition) :
    pieces clause (additions ++ [addition]) =
      pieces clause additions ++ if addition.clause = clause then [addition] else [] := by
  rw [pieces, pieces, List.filter_append]
  by_cases here : addition.clause = clause <;> simp [here]

theorem length_grouped_le (conditions : List Condition) : (grouped conditions).length ≤ 1 := by
  cases conditions <;> simp [grouped]

theorem length_concatenated_le {α : Type} (lists : List (List α)) :
    (concatenated lists).length ≤ 1 := by
  cases lists <;> simp [concatenated]

section Gathered

variable (additions : List Addition)

/-- What the pieces of a clause are once additions are gathered. -/
theorem pieces_gathered (clause : Clause) :
    pieces clause (gathered additions) = match clause with
      | .keyCondition => (grouped (conditionsOf .keyCondition additions)).map keyCondition
      | .filter => (grouped (conditionsOf .filter additions)).map filter
      | .condition => (grouped (conditionsOf .condition additions)).map condition
      | .update => (concatenated (updatesOf additions)).map update
      | .projection => (concatenated (pathsOf additions)).map projection := by
  cases clause <;>
    simp [pieces, gathered, List.filter_append, List.filter_map, Function.comp_def, Addition.clause]

/-- Gathered additions have no more than one piece for each clause. -/
theorem length_pieces_gathered_le (clause : Clause) :
    (pieces clause (gathered additions)).length ≤ 1 := by
  rw [pieces_gathered]
  cases clause with
  | keyCondition | filter | condition =>
    rw [List.length_map]
    exact length_grouped_le _
  | update | projection =>
    rw [List.length_map]
    exact length_concatenated_le _

/-- Gathered conditions are in one group. -/
theorem conditionsOf_gathered {clause : Clause} (takes : Clauses.takesConditions clause = true) :
    conditionsOf clause (gathered additions) = grouped (conditionsOf clause additions) := by
  cases clause with
  | update | projection => cases takes
  | keyCondition | filter | condition =>
    rw [conditionsOf, pieces_gathered, List.filterMap_map]
    exact List.filterMap_some

/-- Gathered updates are in one. -/
theorem updatesOf_gathered :
    updatesOf (gathered additions) = concatenated (updatesOf additions) := by
  rw [updatesOf, pieces_gathered, List.filterMap_map]
  exact List.filterMap_some

/-- Gathered paths are in one list. -/
theorem pathsOf_gathered : pathsOf (gathered additions) = concatenated (pathsOf additions) := by
  rw [pathsOf, pieces_gathered, List.filterMap_map]
  exact List.filterMap_some

end Gathered

end Addition

namespace Clauses

open Addition

/-! ### Building clauses -/

/-- Clauses with an addition. -/
def extend (clauses : Clauses) : Addition → Clauses
  | .keyCondition condition => clauses.addKeyCondition condition
  | .filter condition => clauses.addFilter condition
  | .condition condition => clauses.addCondition condition
  | .update update => clauses.addUpdate update
  | .projection paths => clauses.addProjection paths

/-- The clauses that are built by additions, one after the other. -/
def ofAdditions (settings : Settings) (additions : List Addition) : Clauses :=
  additions.foldl extend { settings }

/-- Conditions joined one after the other. -/
def conjoined : List Condition → Option Condition
  | [] => none
  | first :: rest => some (rest.foldl (Condition.join .and) first)

/-- Updates merged one after the other. -/
def merged : List Update → Option Update
  | [] => none
  | updates => some updates.flatten

theorem conjoined_concat (conditions : List Condition) (condition : Condition) :
    conjoined (conditions ++ [condition]) = some (conjoin (conjoined conditions) condition) := by
  cases conditions with
  | nil => rfl
  | cons first rest =>
    rw [List.cons_append, conjoined, List.foldl_concat]
    rfl

theorem merged_concat (updates : List Update) (update : Update) :
    merged (updates ++ [update]) = some ((merged updates).getD [] ++ update) := by
  cases updates with
  | nil => simp [merged]
  | cons first rest => simp [merged]

/-- **Each clause is built by its own additions**, in their order. -/
theorem ofAdditions_eq (settings : Settings) (additions : List Addition) :
    ofAdditions settings additions =
      { settings
        keyCondition := conjoined (conditionsOf .keyCondition additions)
        filter := conjoined (conditionsOf .filter additions)
        condition := conjoined (conditionsOf .condition additions)
        update := merged (updatesOf additions)
        projection := (pathsOf additions).flatten } := by
  -- One step for the last addition: it changes its own clause and no other.
  induction additions using List.reverseRecOn with
  | nil => rfl
  | append_singleton additions addition ih =>
    rw [ofAdditions, List.foldl_concat, ← ofAdditions, ih]
    cases addition <;>
      simp [extend, addKeyCondition, addFilter, addCondition, addUpdate, addProjection,
        conditionsOf, updatesOf, pathsOf, pieces_concat, Addition.clause, condition?, update?,
        paths?, conjoined_concat, merged_concat]

/-- Additions that are the same for each clause build the same clauses, however those for
different clauses are mixed. -/
theorem ofAdditions_congr (settings : Settings) {additions others : List Addition}
    (same : ∀ clause, pieces clause others = pieces clause additions) :
    ofAdditions settings others = ofAdditions settings additions := by
  rw [ofAdditions_eq, ofAdditions_eq]
  simp only [conditionsOf, updatesOf, pathsOf, same]

/-! ### Compiling -/

/-- A condition that may be absent compiles as its normal form says. -/
theorem compileOptional_congr {condition other : Option Condition}
    (same : condition.map Condition.normal = other.map Condition.normal) (clause : Clause) :
    compileOptional (Condition.compileClause clause) condition =
      compileOptional (Condition.compileClause clause) other := by
  cases condition with
  | none =>
    cases other with
    | none => rfl
    | some => cases same
  | some condition =>
    cases other with
    | none => cases same
    | some other =>
      rw [compileOptional, compileOptional,
        Condition.compileClause_congr (Option.some.inj same) clause]

/-- The normal form of conditions joined one after the other is that of the group of all. -/
theorem map_normal_conjoined {conditions : List Condition}
    (members : conditions.head? ≠ some (.group .and [])) :
    (conjoined (grouped conditions)).map Condition.normal =
      (conjoined conditions).map Condition.normal := by
  cases conditions with
  | nil => rfl
  | cons first rest =>
    refine congrArg some (Condition.normal_foldl_join (fun empty => members ?_) rest).symm
    rw [empty, List.head?_cons]

theorem merged_concatenated (updates : List Update) :
    merged (concatenated updates) = merged updates := by
  cases updates <;> simp [merged, concatenated]

theorem flatten_concatenated {α : Type} (lists : List (List α)) :
    (concatenated lists).flatten = lists.flatten := by
  cases lists <;> simp [concatenated]

/-- **Clauses compile alike in whatever pieces they were given.** If no clause begins with an AND
without members, additions compile to the texts and the table of the gathered ones, which are one
addition for each clause at most, or are refused for the same reason; and so do additions in any
other order that keeps the one within each clause, without exception. -/
theorem compile_in_pieces (settings : Settings) (additions : List Addition) :
    ((∀ clause, (conditionsOf clause additions).head? ≠ some (.group .and [])) →
      (ofAdditions settings (gathered additions)).compile =
        (ofAdditions settings additions).compile) ∧
    (∀ clause, (pieces clause (gathered additions)).length ≤ 1) ∧
    ∀ others, (∀ clause, pieces clause others = pieces clause additions) →
      (ofAdditions settings others).compile = (ofAdditions settings additions).compile := by
  refine ⟨fun members => ?_, length_pieces_gathered_le additions, fun others same => ?_⟩
  -- Gathered conditions make other trees, but compile alike; the rest of the clauses is the same.
  · have alike : ∀ clause, takesConditions clause = true →
        compileOptional (Condition.compileClause clause)
            (conjoined (conditionsOf clause (gathered additions))) =
          compileOptional (Condition.compileClause clause)
            (conjoined (conditionsOf clause additions)) := by
      intro clause takes
      rw [conditionsOf_gathered additions takes]
      exact compileOptional_congr (map_normal_conjoined (members clause)) clause
    rw [ofAdditions_eq, ofAdditions_eq, updatesOf_gathered, pathsOf_gathered, merged_concatenated,
      flatten_concatenated]
    simp only [compile, compileOn, alike .keyCondition rfl, alike .filter rfl,
      alike .condition rfl]
  · rw [ofAdditions_congr settings same]

/-- A filter in three pieces, two of which are groups, between the pieces of an update and of a
projection: all at once, and in another order, it is the same. -/
theorem compile_in_pieces_mixed :
    ∃ additions others compiled,
      additions = [.projection ["a"],
        .filter (.group .or [.exists "b" true, .exists "a" false]), .update [("m", .remove)],
        .filter (.group .and [.exists "c" false]), .projection ["m", "a"],
        .filter (.not (.hasType "b" .map)), .update [("n", .set (.value (.string "M")))]] ∧
      others = [.update [("m", .remove)], .update [("n", .set (.value (.string "M")))],
        .filter (.group .or [.exists "b" true, .exists "a" false]), .projection ["a"],
        .projection ["m", "a"], .filter (.group .and [.exists "c" false]),
        .filter (.not (.hasType "b" .map))] ∧
      (ofAdditions {} additions).compile = .ok compiled ∧
      (ofAdditions {} (gathered additions)).compile = .ok compiled ∧
      (ofAdditions {} others).compile = .ok compiled ∧
      compiled.filter = some ("(attribute_not_exists(#b) OR attribute_exists(#a)) AND " ++
        "attribute_exists(#c) AND NOT (attribute_type(#b, :v1))") := by
  obtain ⟨compiled, ran, filter⟩ : ∃ compiled : CompiledClauses, (ofAdditions {}
      [.projection ["a"],
        .filter (.group .or [.exists "b" true, .exists "a" false]), .update [("m", .remove)],
        .filter (.group .and [.exists "c" false]), .projection ["m", "a"],
        .filter (.not (.hasType "b" .map)),
        .update [("n", .set (.value (.string "M")))]]).compile = .ok compiled ∧
      compiled.filter = some ("(attribute_not_exists(#b) OR attribute_exists(#a)) AND " ++
        "attribute_exists(#c) AND NOT (attribute_type(#b, :v1))") :=
    exists_ok_of_toOption (by decide +kernel)
  obtain ⟨atOnce, _, reordered⟩ := compile_in_pieces {}
    [.projection ["a"],
      .filter (.group .or [.exists "b" true, .exists "a" false]), .update [("m", .remove)],
      .filter (.group .and [.exists "c" false]), .projection ["m", "a"],
      .filter (.not (.hasType "b" .map)), .update [("n", .set (.value (.string "M")))]]
  refine ⟨_, _, compiled, rfl, rfl, ran, ?_, ?_, filter⟩
  · rw [atOnce ?_, ran]
    intro clause
    cases clause <;> rintro ⟨⟩
  · rw [reordered _ ?_, ran]
    intro clause
    cases clause <;> rfl

end Clauses

end ItemExpr
