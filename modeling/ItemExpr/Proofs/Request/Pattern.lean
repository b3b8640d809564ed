import ItemExpr.Proofs.Compile.Mirror
import ItemExpr.Proofs.Condition.Collapse
import ItemExpr.Proofs.Request.Written

/-! # What compiled clauses reveal of literals

Literals never stand in an expression, and the compilers look at nothing of them but their types and
which of them are equal. So clauses with other literals of the same pattern compile to the same
texts and the same map of names, and their maps of values differ in the values only
(`compile_reveals_pattern`). -/

namespace ItemExpr

open Compile

variable {image : AttributeValue → AttributeValue}

/-! ### Conditions -/

/-- An operand with the image of its literal. -/
def Operand.mapLiterals (image : AttributeValue → AttributeValue) : Operand → Operand
  | .path text => .path text
  | .size text => .size text
  | .value literal => .value (image literal)

namespace Condition

mutual

/-- A condition with the images of its literals, at any depth. -/
def mapLiterals (image : AttributeValue → AttributeValue) : Condition → Condition
  | .compare left comparison right =>
    .compare (left.mapLiterals image) comparison (right.mapLiterals image)
  | .between operand lower upper =>
    .between (operand.mapLiterals image) (lower.mapLiterals image) (upper.mapLiterals image)
  | .among operand candidates =>
    .among (operand.mapLiterals image) (candidates.map (Operand.mapLiterals image))
  | .group connective members => .group connective (mapMembers image members)
  | .not condition => .not (mapLiterals image condition)
  | .exists path negated => .exists path negated
  | .hasType path type => .hasType path type
  | .beginsWith path start => .beginsWith path (start.mapLiterals image)
  | .contains path element => .contains path (element.mapLiterals image)

/-- Some conditions with the images of their literals. -/
def mapMembers (image : AttributeValue → AttributeValue) : List Condition → List Condition
  | [] => []
  | member :: members => mapLiterals image member :: mapMembers image members

end

theorem mapMembers_eq_map (members : List Condition) :
    mapMembers image members = members.map (mapLiterals image) := by
  induction members with
  | nil => rfl
  | cons member members ih => rw [mapMembers, ih, List.map_cons]

@[simp] theorem isGroup_mapLiterals (condition : Condition) :
    (condition.mapLiterals image).isGroup = condition.isGroup := by
  cases condition <;> rfl

@[simp] theorem isEmptyGroup_mapLiterals (condition : Condition) :
    (condition.mapLiterals image).isEmptyGroup = condition.isEmptyGroup := by
  cases condition with
  | group connective members => cases members <;> rfl
  | _ => rfl

@[simp] theorem isEmpty_mapMembers (members : List Condition) :
    (mapMembers image members).isEmpty = members.isEmpty := by
  rw [mapMembers_eq_map, List.isEmpty_map]

/-- Empty groups are where they were. -/
@[simp] theorem any_mapMembers (members : List Condition) :
    (mapMembers image members).any isEmptyGroup = members.any isEmptyGroup := by
  rw [mapMembers_eq_map, List.any_map]
  exact List.any_congr rfl isEmptyGroup_mapLiterals

@[simp] theorem isTest_mapLiterals (condition : Condition) :
    (condition.mapLiterals image).isTest = condition.isTest := by
  cases condition <;> rfl

/-- A condition is spliced whatever its literals are. -/
theorem splice_mapLiterals (connective : Connective) (condition : Condition) :
    splice connective (condition.mapLiterals image) =
      mapMembers image (splice connective condition) := by
  cases condition with
  | group connective' members =>
    cases members with
    | nil => rfl
    | cons first rest =>
      rw [mapLiterals, mapMembers, splice, splice]
      by_cases same : connective' = connective
      · rw [if_pos same, if_pos same, mapMembers]
      · rw [if_neg same, if_neg same]
        rfl
  | _ => rfl

/-- The members of a group are spliced whatever their literals are, if their own groups are taken
out. -/
theorem normalMembers_mapMembers (connective : Connective) {members : List Condition}
    (each : ∀ member ∈ members,
      (member.mapLiterals image).normal = member.normal.mapLiterals image) :
    normalMembers connective (mapMembers image members) =
      mapMembers image (normalMembers connective members) := by
  induction members with
  | nil => rw [mapMembers, normalMembers_nil, mapMembers]
  | cons member members ih =>
    rw [List.forall_mem_cons] at each
    rw [mapMembers, normalMembers_cons, normalMembers_cons, each.1, splice_mapLiterals, ih each.2,
      mapMembers_eq_map, mapMembers_eq_map, mapMembers_eq_map, List.map_append]

/-- Groups are taken out whatever the literals are. -/
theorem normal_mapLiterals (condition : Condition) :
    (condition.mapLiterals image).normal = condition.normal.mapLiterals image := by
  induction condition with
  | test condition test =>
    rw [normal_of_isTest test, normal_of_isTest ((isTest_mapLiterals condition).trans test)]
  | not condition ih => rw [mapLiterals, normal_not, normal_not, ih, mapLiterals]
  | group connective members ih =>
    by_cases single : members.length = 1
    · obtain ⟨only, rfl⟩ := List.length_eq_one_iff.1 single
      rw [mapLiterals, mapMembers, mapMembers, normal_group_singleton, normal_group_singleton]
      exact ih only (List.mem_singleton_self only)
    · have several : (mapMembers image members).length ≠ 1 := by
        rwa [mapMembers_eq_map, List.length_map]
      rw [mapLiterals, normal_group_of_length several, normal_group_of_length single, mapLiterals,
        normalMembers_mapMembers connective ih]

end Condition

/-- An operand is mirrored by its image. -/
theorem Operand.mirrors_compile (keeps : KeepsPattern image) (operand : Operand) :
    Mirrors image Eq operand.compile (operand.mapLiterals image).compile := by
  cases operand with
  | path text => exact .path text
  | size text => exact (Mirrors.path text).bind fun _ => .pure rfl
  | value literal => exact .value keeps literal

theorem Operand.mirrors_compileAll (keeps : KeepsPattern image) (operands : List Operand) :
    Mirrors image Eq (Operand.compileAll operands)
      (Operand.compileAll (operands.map (Operand.mapLiterals image))) := by
  induction operands with
  | nil => exact .pure rfl
  | cons operand operands ih =>
    exact (operand.mirrors_compile keeps).bind fun _ => ih.bind fun _ => .pure rfl

namespace Condition

/-- A membership test is mirrored by its image. If it is refused, its place may be named by a
summary of the literal in front. -/
theorem mirrors_compileAmong (keeps : KeepsPattern image) (operand : Operand)
    (candidates : List Operand) :
    Mirrors image Eq (compileAmong operand candidates)
      (compileAmong (operand.mapLiterals image)
        (candidates.map (Operand.mapLiterals image))) := by
  refine .get fun table => ?_
  rw [List.isEmpty_map, List.length_map]
  show Mirrors image Eq (ite _ _ _) (ite _ _ (ite (table.settings.maxCandidates < _) _ _))
  by_cases empty : candidates.isEmpty = true
  · rw [if_pos empty, if_pos empty]
    exact .refuse _ _ _
  · rw [if_neg empty, if_neg empty]
    by_cases many : table.settings.maxCandidates < candidates.length
    · rw [if_pos many, if_pos many]
      exact .refuse _ _ _
    · rw [if_neg many, if_neg many]
      exact (operand.mirrors_compile keeps).bind fun _ =>
        (Operand.mirrors_compileAll keeps candidates).bind fun _ => .pure rfl

/-- A call is mirrored by its image. -/
theorem mirrors_compileFunction (keeps : KeepsPattern image) (function : Function)
    (path : String) (argument : Operand) :
    Mirrors image Eq (compileFunction function path argument)
      (compileFunction function path (argument.mapLiterals image)) := by
  have size : (argument.mapLiterals image).isSize = argument.isSize := by
    cases argument <;> rfl
  rw [compileFunction, compileFunction, size]
  split
  · exact .refuse path path _
  · exact (Mirrors.path path).bind fun _ =>
      (argument.mirrors_compile keeps).bind fun _ => .pure rfl

mutual

/-- A condition in normal form is mirrored by its image. -/
theorem mirrors_compileNormal (keeps : KeepsPattern image) : ∀ condition : Condition,
    Mirrors image Eq (compileNormal condition) (compileNormal (condition.mapLiterals image))
  | .compare left comparison right => by
    rw [mapLiterals, compileNormal, compileNormal]
    exact (left.mirrors_compile keeps).bind fun _ =>
      (right.mirrors_compile keeps).bind fun _ => .pure rfl
  | .between operand lower upper => by
    rw [mapLiterals, compileNormal, compileNormal]
    exact (operand.mirrors_compile keeps).bind fun _ =>
      (lower.mirrors_compile keeps).bind fun _ =>
        (upper.mirrors_compile keeps).bind fun _ => .pure rfl
  | .among operand candidates => by
    rw [mapLiterals, compileNormal, compileNormal]
    exact mirrors_compileAmong keeps operand candidates
  | .group connective members => by
    rw [mapLiterals, compileNormal, compileNormal, isEmpty_mapMembers, any_mapMembers]
    split
    · exact .throw .emptyGroup
    · exact (mirrors_compileMembers keeps members).bind fun _ => .pure rfl
  | .not condition => by
    rw [mapLiterals, compileNormal, compileNormal]
    exact (mirrors_compileNormal keeps condition).bind fun _ => .pure rfl
  | .exists path negated => by
    rw [mapLiterals, compileNormal]
    exact (Mirrors.path path).bind fun _ => .pure rfl
  | .hasType path type => by
    -- The code of the type is its own image.
    rw [mapLiterals, compileNormal]
    have code := Mirrors.value keeps (.string type.code)
    rw [keeps.code] at code
    exact (Mirrors.path path).bind fun _ => code.bind fun _ => .pure rfl
  | .beginsWith path start => by
    rw [mapLiterals, compileNormal, compileNormal]
    exact mirrors_compileFunction keeps .beginsWith path start
  | .contains path element => by
    rw [mapLiterals, compileNormal, compileNormal]
    exact mirrors_compileFunction keeps .contains path element

/-- The members of a group are mirrored by their images. -/
theorem mirrors_compileMembers (keeps : KeepsPattern image) : ∀ members : List Condition,
    Mirrors image Eq (compileMembers members) (compileMembers (mapMembers image members))
  | [] => by
    rw [mapMembers, compileMembers]
    exact .pure rfl
  | member :: members => by
    rw [mapMembers, compileMembers, compileMembers, isGroup_mapLiterals]
    exact (mirrors_compileNormal keeps member).bind fun _ =>
      (mirrors_compileMembers keeps members).bind fun _ => .pure rfl

end

/-- A condition is mirrored by its image. -/
theorem mirrors_compileClause (keeps : KeepsPattern image) (clause : Clause)
    (condition : Condition) :
    Mirrors image Eq (condition.compileClause clause)
      ((condition.mapLiterals image).compileClause clause) := by
  rw [compileClause, compileClause, normal_mapLiterals]
  exact .transaction ((mirrors_compileNormal keeps condition.normal).bind fun text =>
    .limitLength clause text)

end Condition

/-! ### Updates -/

namespace Update

/-- An operand with the images of its literals. -/
def Operand.mapLiterals (image : AttributeValue → AttributeValue) : Operand → Operand
  | .value literal => .value (image literal)
  | .reference path fallback => .reference path (fallback.map image)

/-- An action with the images of its literals. -/
def Action.mapLiterals (image : AttributeValue → AttributeValue) : Action → Action
  | .set operand => .set (operand.mapLiterals image)
  | .add operand => .add (operand.mapLiterals image)
  | .subtract operand => .subtract (operand.mapLiterals image)
  | .append operand => .append (operand.mapLiterals image)
  | .prepend operand => .prepend (operand.mapLiterals image)
  | .remove => .remove
  | .addToSet operand => .addToSet (operand.mapLiterals image)
  | .deleteFromSet operand => .deleteFromSet (operand.mapLiterals image)

/-- An update with the images of its literals. -/
def mapLiterals (image : AttributeValue → AttributeValue) (update : Update) : Update :=
  update.map fun entry => (entry.1, entry.2.mapLiterals image)

@[simp] theorem Action.part_mapLiterals (action : Action) :
    (action.mapLiterals image).part = action.part := by
  cases action <;> rfl

/-- A kind of literals does not tell a literal from its image. -/
theorem admits_image (keeps : KeepsPattern image) (kind : LiteralKind) (literal : AttributeValue) :
    kind.admits (image literal) = kind.admits literal := by
  cases kind <;>
    simp only [LiteralKind.admits, AttributeValue.isSet, keeps.type]

/-- A literal is of the wrong kind exactly if its image is. -/
theorem Action.literalDefect?_mapLiterals (keeps : KeepsPattern image) (action : Action) :
    (action.mapLiterals image).literalDefect? = action.literalDefect? := by
  have kind : (action.mapLiterals image).literalKind? = action.literalKind? := by
    cases action <;> rfl
  have operand : (action.mapLiterals image).operand? =
      action.operand?.map (Operand.mapLiterals image) := by
    cases action <;> rfl
  rw [literalDefect?, literalDefect?, kind, operand]
  cases action.literalKind? with
  | none => rfl
  | some kind =>
    cases action.operand? with
    | none => rfl
    | some operand =>
      cases operand with
      | value literal =>
        simp only [Option.map_some, Operand.mapLiterals, admits_image keeps, keeps.type]
      | reference path fallback => rfl

/-- An operand is mirrored by its image. -/
theorem Operand.mirrors_compile (keeps : KeepsPattern image) (operand : Operand) :
    Mirrors image Eq operand.compile (operand.mapLiterals image).compile := by
  cases operand with
  | value literal => exact .value keeps literal
  | reference path fallback =>
    cases fallback with
    | none => exact .path path
    | some fallback =>
      exact (Mirrors.path path).bind fun _ => (Mirrors.value keeps fallback).bind fun _ => .pure rfl

/-- An action is mirrored by its image. -/
theorem Action.mirrors_compile (keeps : KeepsPattern image) (path : String) (action : Action) :
    Mirrors image Eq (action.compile path) ((action.mapLiterals image).compile path) := by
  rw [compile, compile, literalDefect?_mapLiterals keeps]
  cases action.literalDefect? with
  | some defect => exact .refuse path path defect
  | none =>
    refine (Mirrors.path path).bind fun target => ?_
    cases action with
    | remove => exact .pure rfl
    | _ => exact (Operand.mirrors_compile keeps _).bind fun _ => .pure rfl

theorem mirrors_entries (keeps : KeepsPattern image) (update : Update) :
    Mirrors image Eq update.entries (update.mapLiterals image).entries := by
  induction update with
  | nil => exact .pure rfl
  | cons entry rest ih =>
    obtain ⟨path, action⟩ := entry
    rw [mapLiterals, List.map_cons, entries, entries, Action.part_mapLiterals]
    exact (action.mirrors_compile keeps path).bind fun _ => ih.bind fun _ => .pure rfl

/-- An update is mirrored by its image. -/
theorem mirrors_compile (keeps : KeepsPattern image) (update : Update) :
    Mirrors image Eq update.compile (update.mapLiterals image).compile := by
  have targets : (update.mapLiterals image).map Prod.fst = update.map Prod.fst := by
    rw [mapLiterals, List.map_map]
    rfl
  have empty : (update.mapLiterals image).isEmpty = update.isEmpty := List.isEmpty_map
  rw [compile, compile, empty, targets]
  refine .transaction ?_
  split
  · exact .throw .emptyUpdate
  · cases firstRepeated? [] (update.map Prod.fst) with
    | some path => exact .refuse path path .repeatedTarget
    | none => exact (mirrors_entries keeps update).bind fun _ => .limitLength .update _

end Update

/-! ### Projections -/

/-- Paths have no literals. -/
theorem Projection.mirrors_compilePaths (before paths : List String) :
    Mirrors image Eq (compilePaths before paths) (compilePaths before paths) := by
  induction paths generalizing before with
  | nil => exact .pure rfl
  | cons path paths ih => exact (Mirrors.path path).bind fun _ => ih _

theorem Projection.mirrors_compile (paths : List String) :
    Mirrors image Eq (compile paths) (compile paths) :=
  .transaction ((mirrors_compilePaths [] paths).bind fun _ => .limitLength .projection _)

/-! ### Clauses -/

/-- Whether compiled clauses **reveal the same** of their literals: they have the same texts and the
same names, and the second ones the images of the values of the first ones. -/
structure CompiledClauses.RevealSame (image : AttributeValue → AttributeValue)
    (compiled compiled' : CompiledClauses) : Prop where
  /-- The texts of all clauses are the same. -/
  text : ∀ clause, compiled'.text clause = compiled.text clause
  /-- The maps of names are the same. -/
  names : compiled'.placeholders.nameMap = compiled.placeholders.nameMap
  /-- The maps of values have the same keys, with the images of the values. -/
  values : compiled'.placeholders.valueMap =
    compiled.placeholders.valueMap.map fun entry => (entry.1, image entry.2)

namespace Clauses

/-- Clauses with the images of their literals. -/
def mapLiterals (image : AttributeValue → AttributeValue) (clauses : Clauses) : Clauses :=
  { clauses with
    keyCondition := clauses.keyCondition.map (Condition.mapLiterals image)
    filter := clauses.filter.map (Condition.mapLiterals image)
    condition := clauses.condition.map (Condition.mapLiterals image)
    update := clauses.update.map (Update.mapLiterals image) }

/-- A clause that may be absent is mirrored by its image. -/
theorem mirrors_compileOptional {α : Type} {compile : α → Compile String} {change : α → α}
    (mirrors : ∀ a, Mirrors image Eq (compile a) (compile (change a))) (clause : Option α) :
    Mirrors image Eq (compileOptional compile clause)
      (compileOptional compile (clause.map change)) := by
  cases clause with
  | none => exact .pure rfl
  | some clause => exact (mirrors clause).bind fun _ => .pure rfl

/-- Clauses are mirrored by their images. -/
theorem mirrors_compileOn (keeps : KeepsPattern image) (clauses : Clauses) :
    Mirrors image (CompiledClauses.RevealSame image) clauses.compileOn
      (clauses.mapLiterals image).compileOn := by
  refine (mirrors_compileOptional (Condition.mirrors_compileClause keeps .keyCondition)
    clauses.keyCondition).bind fun _ => ?_
  refine (mirrors_compileOptional (Condition.mirrors_compileClause keeps .filter)
    clauses.filter).bind fun _ => ?_
  refine (mirrors_compileOptional (Condition.mirrors_compileClause keeps .condition)
    clauses.condition).bind fun _ => ?_
  refine (mirrors_compileOptional (Update.mirrors_compile keeps) clauses.update).bind fun _ => ?_
  have projected := mirrors_compileOptional (@Projection.mirrors_compile image)
    (if clauses.projection.isEmpty then none else some clauses.projection)
  rw [Option.map_id'] at projected
  refine projected.bind fun _ => .get fun table => .pure ⟨fun clause => ?_, rfl, rfl⟩
  cases clause <;> rfl

/-- **Compiled text reveals literals only through their pattern.** Clauses and the same clauses with
images of their literals, which keep types and equality, are both refused, and then for the same
reason but for the name of its place, or both compile: to the same text of every clause, the same
map of names, and maps of values with the same keys that hold the images of each other's values. -/
theorem compile_reveals_pattern (keeps : KeepsPattern image) (clauses : Clauses) :
    match clauses.compile, (clauses.mapLiterals image).compile with
    | .ok compiled, .ok compiled' => compiled.RevealSame image compiled'
    | .error refusal, .error refusal' => refusal.Alike refusal'
    | _, _ => False := by
  have alike : AlikeOutcomes (CompiledClauses.RevealSame image) clauses.compile
      (clauses.mapLiterals image).compile :=
    (mirrors_compileOn keeps clauses (Placeholders.empty clauses.settings)).1
  revert alike
  cases clauses.compile <;> cases (clauses.mapLiterals image).compile <;> exact id

/-- The other truth value, and any other value itself. -/
def exchangeTruth : AttributeValue → AttributeValue
  | .boolean flag => .boolean !flag
  | value => value

/-- Truth values may be exchanged. -/
theorem keepsPattern_exchangeTruth : KeepsPattern exchangeTruth where
  equal a b := by
    cases a with
    | boolean flag =>
      cases b with
      | boolean flag' => cases flag <;> cases flag' <;> rfl
      | _ => rfl
    | _ => cases b <;> rfl
  type a := by cases a <;> rfl
  code type := rfl

/-- With truth values exchanged, a literal that stands in three places still has one placeholder. -/
theorem compile_reveals_pattern_of_truth :
    ∃ compiled compiled' : CompiledClauses,
      Clauses.compile
        { filter := some (.group .and [.compare (.path "a") .eq (.value (.boolean true)),
            .among (.path "b") [.value (.boolean false), .value (.boolean true)]])
          update := some [("n", .set (.reference "m" (some (.boolean true))))] } =
        .ok compiled ∧
      Clauses.compile
        { filter := some (.group .and [.compare (.path "a") .eq (.value (.boolean false)),
            .among (.path "b") [.value (.boolean true), .value (.boolean false)]])
          update := some [("n", .set (.reference "m" (some (.boolean false))))] } =
        .ok compiled' ∧
      compiled.filter = some "#a = :v1 AND #b IN (:v2, :v1)" ∧
      compiled.RevealSame exchangeTruth compiled' := by
  have same := compile_reveals_pattern keepsPattern_exchangeTruth
    { filter := some (.group .and [.compare (.path "a") .eq (.value (.boolean true)),
        .among (.path "b") [.value (.boolean false), .value (.boolean true)]])
      update := some [("n", .set (.reference "m" (some (.boolean true))))] }
  obtain ⟨compiled, ran, filter⟩ : ∃ compiled : CompiledClauses, Clauses.compile
      { filter := some (.group .and [.compare (.path "a") .eq (.value (.boolean true)),
          .among (.path "b") [.value (.boolean false), .value (.boolean true)]])
        update := some [("n", .set (.reference "m" (some (.boolean true))))] } = .ok compiled ∧
      compiled.filter = some "#a = :v1 AND #b IN (:v2, :v1)" :=
    exists_ok_of_toOption (by decide +kernel)
  obtain ⟨compiled', ran', _⟩ : ∃ compiled' : CompiledClauses, (Clauses.mapLiterals exchangeTruth
      { filter := some (.group .and [.compare (.path "a") .eq (.value (.boolean true)),
          .among (.path "b") [.value (.boolean false), .value (.boolean true)]])
        update := some [("n", .set (.reference "m" (some (.boolean true))))] }).compile =
        .ok compiled' ∧
      compiled'.filter = some "#a = :v1 AND #b IN (:v2, :v1)" :=
    exists_ok_of_toOption (by decide +kernel)
  rw [ran, ran'] at same
  exact ⟨compiled, compiled', ran, ran', filter, same⟩

end Clauses

end ItemExpr
