import ItemExpr.Proofs.Condition.Paths
import ItemExpr.Proofs.Placeholders.Listing
import ItemExpr.Proofs.Request.Spelled

/-! # The leaves of clauses

Attributes, sizes and literals stand at the leaves of clauses, in one order (`Clauses.leaves`):
those of the key condition, the filter, the condition, the update and the projection, conditions
from left to right and actions as they were given. When clauses compile, their leaves are registered
in this order, and nothing else is (`compile_registers_leaves`). So the maps of a request have the
names on the paths and the literals, each once, and value placeholders are numbered in this
order. -/

namespace ItemExpr

open Compile

/-! ### What leaves mention -/

/-- The literal of a term, if it is one. -/
def Term.literal? {ν : Type} : Term ν → Option ν
  | .value literal => some literal
  | _ => none

/-- The literal of an operand, if it is one. -/
def Operand.literal? : Operand → Option AttributeValue
  | .value literal => some literal
  | _ => none

/-- The names that terms mention are those on their paths. -/
theorem Term.names_flatMap_mentions {ν : Type} (terms : List (Term ν)) :
    (terms.flatMap Term.mentions).filterMap Mention.name? =
      (terms.filterMap Term.path?).flatMap Path.names := by
  induction terms with
  | nil => rfl
  | cons term terms ih =>
    rw [List.flatMap_cons, List.filterMap_append, ih]
    cases term with
    | path target | size target =>
      rw [mentions, Path.mentions, List.filterMap_map]
      exact congrArg (· ++ _) List.filterMap_some
    | value literal => rfl

/-- The literals that terms mention are themselves. -/
theorem Term.values_flatMap_mentions {ν : Type} (terms : List (Term ν)) :
    (terms.flatMap Term.mentions).filterMap Mention.value? = terms.filterMap Term.literal? := by
  induction terms with
  | nil => rfl
  | cons term terms ih =>
    rw [List.flatMap_cons, List.filterMap_append, ih]
    cases term with
    | path target | size target =>
      rw [mentions, Path.mentions, List.filterMap_map]
      exact congrArg (· ++ _) (List.filterMap_none _)
    | value literal => rfl

/-- A literal is read as itself. -/
theorem Operand.filterMap_literal? {operands : List Operand} {terms : List (Term AttributeValue)}
    (reads : AllReadAs operands terms) :
    terms.filterMap Term.literal? = operands.filterMap Operand.literal? := by
  induction reads with
  | nil => rfl
  | @cons operand term operands terms first _ ih =>
    cases operand with
    | path text | size text =>
      obtain ⟨target, _, same⟩ := bind_eq_ok_iff.1 first
      cases same
      exact ih
    | value literal =>
      cases first
      exact congrArg (literal :: ·) ih

/-- Every path has a name. -/
theorem Path.flatMap_names_eq_nil_iff {texts : List String} {paths : List Path}
    (parses : Path.ParseAll texts paths) : paths.flatMap Path.names = [] ↔ texts = [] := by
  cases parses with
  | nil => exact iff_of_true rfl rfl
  | cons first rest => exact iff_of_false nofun nofun

/-! ### Updates and projections -/

/-- The leaves of a source. -/
def Source.leaves {ν : Type} : Source ν → List (Term ν)
  | .value literal => [.value literal]
  | .reference path fallback => .path path :: fallback.toList.map .value

/-- The leaves of a change. -/
def Change.leaves {ν : Type} : Change ν → List (Term ν)
  | .remove target => [.path target]
  | .change _ target source => .path target :: source.leaves

/-- A change mentions what its leaves mention. -/
theorem Change.mentions_eq_flatMap {ν : Type} (change : Change ν) :
    change.mentions = change.leaves.flatMap Term.mentions := by
  cases change with
  | remove target => exact (List.append_nil _).symm
  | change kind target source =>
    refine congrArg (target.mentions ++ ·) ?_
    cases source with
    | value literal => rfl
    | reference path fallback =>
      cases fallback with
      | none => exact (List.append_nil _).symm
      | some fallback => rfl

namespace Update

/-- The leaves of an operand: the attribute that it refers to, and then the literal in its place. -/
def Operand.leaves : Operand → List ItemExpr.Operand
  | .value literal => [.value literal]
  | .reference path fallback => .path path :: fallback.toList.map .value

/-- The **leaves of an update**: for each action its target and then its operand. -/
def leaves (update : Update) : List ItemExpr.Operand :=
  update.flatMap fun entry => .path entry.1 :: entry.2.operand?.toList.flatMap Operand.leaves

/-- The leaves of an operand are read as those of the source that it says. -/
theorem Operand.leaves_of_read {operand : Operand} {source : Source AttributeValue}
    (reads : operand.read = .ok source) :
    ItemExpr.Operand.AllReadAs operand.leaves source.leaves := by
  cases operand with
  | value literal =>
    cases reads
    exact .cons rfl .nil
  | reference path fallback =>
    obtain ⟨target, parsed, same⟩ := bind_eq_ok_iff.1 reads
    cases same
    refine .cons (ItemExpr.Operand.read_path parsed) ?_
    cases fallback with
    | none => exact .nil
    | some fallback => exact .cons rfl .nil

/-- The leaves of an action are read as those of the change that it says. -/
theorem Action.leaves_of_read {path : String} {action : Action} {change : Change AttributeValue}
    (reads : action.read path = .ok change) :
    ItemExpr.Operand.AllReadAs (.path path :: action.operand?.toList.flatMap Operand.leaves)
      change.leaves := by
  rw [read] at reads
  split at reads
  · cases reads
  · obtain ⟨target, parsed, reads⟩ := bind_eq_ok_iff.1 reads
    cases action with
    | remove =>
      cases reads
      exact .cons (ItemExpr.Operand.read_path parsed) .nil
    | _ =>
      obtain ⟨source, read, reads⟩ := bind_eq_ok_iff.1 reads
      cases reads
      refine .cons (ItemExpr.Operand.read_path parsed) ?_
      rw [operand?, Option.toList_some, List.flatMap_singleton]
      exact Operand.leaves_of_read read

/-- **The leaves of an update are read as those of the changes that it says.** -/
theorem leaves_of_read {update : Update} {changes : List (Change AttributeValue)}
    (reads : update.read = .ok changes) :
    ItemExpr.Operand.AllReadAs update.leaves (changes.flatMap Change.leaves) := by
  replace reads := readAll_of_read reads
  induction update generalizing changes with
  | nil =>
    cases reads
    exact .nil
  | cons entry rest ih =>
    obtain ⟨change, others, first, behind, rfl⟩ := cons_eq_ok_iff.1 reads
    rw [leaves, List.flatMap_cons, List.flatMap_cons]
    exact List.rel_append (Action.leaves_of_read first) (ih behind)

end Update

/-- The leaves of a projection are read as its paths. -/
theorem Projection.leaves_of_read {texts : List String} {paths : List Path}
    (reads : Projection.read texts = .ok paths) :
    Operand.AllReadAs (texts.map .path) (paths.map .path) := by
  induction texts generalizing paths with
  | nil =>
    cases reads
    exact .nil
  | cons text texts ih =>
    obtain ⟨path, others, first, rest, rfl⟩ := cons_eq_ok_iff.1 reads
    exact .cons (Operand.read_path first) (ih rest)

/-! ### Registering leaves -/

/-- Whether a compilation that succeeds **registers some leaves** in order, and nothing else. -/
def Compile.RegistersLeaves (compile : Compile String) (leaves : List Operand) : Prop :=
  ∀ {table after : Placeholders} {text : String}, compile.runOn table = (.ok text, after) →
    ∃ terms, Operand.AllReadAs leaves terms ∧
      after = table.registerAll (terms.flatMap Term.mentions)

/-- A clause whose text is that of what can be read registers its leaves, if they are read as the
terms that are mentioned. -/
theorem Compile.registersLeaves_of_runOn {α β : Type} {compile : Compile String}
    {leaves : List Operand} {clause : Clause} {layOut : β → String}
    {phrase : α → Phrase β} (reading : Settings → Except CompileError α)
    (terms : α → List (Term AttributeValue))
    (runs : ∀ table, compile.runOn table =
      clauseOutcome clause layOut table ((reading table.settings).map phrase))
    (reads : ∀ settings said, reading settings = .ok said → Operand.AllReadAs leaves (terms said))
    (registers : ∀ said, (phrase said).registrations = (terms said).flatMap Term.mentions) :
    compile.RegistersLeaves leaves := by
  intro table after text compiled
  rw [runs] at compiled
  obtain ⟨_, means, _, rfl⟩ := clauseOutcome_eq_ok compiled
  obtain ⟨said, read, rfl⟩ := map_eq_ok_iff.1 means
  refine ⟨terms said, reads _ said read, ?_⟩
  rw [← registers]
  rfl

theorem Condition.registersLeaves_compileClause (clause : Clause) (condition : Condition) :
    (condition.compileClause clause).RegistersLeaves condition.leaves := by
  refine registersLeaves_of_runOn (fun settings => condition.normal.read settings) Formula.leaves
    (runOn_compileClause clause condition) ?_ fun said => said.mentions_eq_flatMap
  intro settings said read
  rw [← condition.leaves_normal]
  exact leaves_of_read read

theorem Update.registersLeaves_compile (update : Update) :
    update.compile.RegistersLeaves update.leaves := by
  refine registersLeaves_of_runOn (fun _ => update.read) (List.flatMap Change.leaves)
    (runOn_compile update) (fun _ _ => leaves_of_read) fun changes => ?_
  rw [List.flatMap_assoc, ← funext Change.mentions_eq_flatMap]
  rfl

theorem Projection.registersLeaves_compile (texts : List String) :
    (Projection.compile texts).RegistersLeaves (texts.map .path) := by
  refine registersLeaves_of_runOn (fun _ => read texts) (List.map .path) (runOn_compile texts)
    (fun _ _ => leaves_of_read) fun paths => ?_
  rw [List.flatMap_map]
  rfl

namespace Clauses

/-- The **leaves of clauses**, in the order in which the clauses are compiled. -/
def leaves (clauses : Clauses) : List Operand :=
  clauses.keyCondition.toList.flatMap Condition.leaves ++
    (clauses.filter.toList.flatMap Condition.leaves ++
      (clauses.condition.toList.flatMap Condition.leaves ++
        (clauses.update.toList.flatMap Update.leaves ++ clauses.projection.map Operand.path)))

/-- The paths of clauses, in order. -/
def paths (clauses : Clauses) : List String := clauses.leaves.filterMap Operand.path?

/-- The literals of clauses, in order; a type that is tested is the literal of its code. -/
def literals (clauses : Clauses) : List AttributeValue :=
  clauses.leaves.filterMap Operand.literal?

/-- A clause that may be absent registers its leaves, if it is there. -/
theorem registersLeaves_compileOptional {α : Type} {compile : α → Compile String}
    {leaves : α → List Operand} {clause : Option α} {table after : Placeholders}
    {text : Option String} (registers : ∀ a, (compile a).RegistersLeaves (leaves a))
    (ran : (compileOptional compile clause).runOn table = (.ok text, after)) :
    ∃ terms, Operand.AllReadAs (clause.toList.flatMap leaves) terms ∧
      after = table.registerAll (terms.flatMap Term.mentions) := by
  rcases runOn_compileOptional_eq_ok.1 ran with
    ⟨rfl, rfl, rfl⟩ | ⟨clause, written, rfl, rfl, compiled⟩
  · exact ⟨[], .nil, rfl⟩
  · rw [Option.toList_some, List.flatMap_singleton]
    exact registers clause compiled

/-- The table of compiled clauses is the one after their leaves are registered. -/
theorem registersLeaves_of_compile {clauses : Clauses} {compiled : CompiledClauses}
    (ran : clauses.compile = .ok compiled) :
    ∃ terms, Operand.AllReadAs clauses.leaves terms ∧ compiled.placeholders =
      (Placeholders.empty clauses.settings).registerAll (terms.flatMap Term.mentions) := by
  obtain ⟨_, _, _, _, key, filtered, conditioned, updated, projected⟩ := compile_eq_ok ran
  obtain ⟨first, ofKey, rfl⟩ :=
    registersLeaves_compileOptional (Condition.registersLeaves_compileClause .keyCondition) key
  obtain ⟨second, ofFilter, rfl⟩ :=
    registersLeaves_compileOptional (Condition.registersLeaves_compileClause .filter) filtered
  obtain ⟨third, ofCondition, rfl⟩ :=
    registersLeaves_compileOptional (Condition.registersLeaves_compileClause .condition)
      conditioned
  obtain ⟨fourth, ofUpdate, rfl⟩ :=
    registersLeaves_compileOptional Update.registersLeaves_compile updated
  obtain ⟨fifth, ofProjection, same⟩ :=
    registersLeaves_compileOptional Projection.registersLeaves_compile projected
  have projection : (if clauses.projection.isEmpty then none
      else some clauses.projection).toList.flatMap (List.map Operand.path) =
      clauses.projection.map Operand.path := by
    cases clauses.projection <;> simp
  rw [projection] at ofProjection
  refine ⟨first ++ (second ++ (third ++ (fourth ++ fifth))), List.rel_append ofKey
    (List.rel_append ofFilter (List.rel_append ofCondition
      (List.rel_append ofUpdate ofProjection))), ?_⟩
  simp only [same, List.flatMap_append, Placeholders.registerAll_append]

/-- **A compiled set registers exactly its leaves, in order.** All of its paths can be parsed; the
map of names has the names on them, each once, and the map of values has the literals, each once up
to equality. The value placeholder of a number stands for the literal with this number among those
that equal none before them. A map is absent if there is nothing for it. -/
theorem compile_registers_leaves {clauses : Clauses} {compiled : CompiledClauses}
    (ran : clauses.compile = .ok compiled) :
    ∃ paths, Path.ParseAll clauses.paths paths ∧
      compiled.placeholders.Lists (paths.flatMap Path.names) clauses.literals ∧
      (∀ number, compiled.placeholders.value?
          (clauses.settings.stem ++ Number.natText (number + 1)) =
        clauses.literals.eraseDups[number]?) ∧
      (compiled.placeholders.bindings.names = none ↔ clauses.paths = []) ∧
      (compiled.placeholders.bindings.values = none ↔ clauses.literals = []) := by
  obtain ⟨terms, reads, table⟩ := registersLeaves_of_compile ran
  have parses : Path.ParseAll clauses.paths (terms.filterMap Term.path?) :=
    Operand.parseAll_of_read reads
  have literals : terms.filterMap Term.literal? = clauses.literals :=
    Operand.filterMap_literal? reads
  have lists : compiled.placeholders.Lists ((terms.filterMap Term.path?).flatMap Path.names)
      clauses.literals := by
    rw [table, ← literals, ← Term.names_flatMap_mentions, ← Term.values_flatMap_mentions]
    exact Placeholders.lists_registerAll clauses.settings _
  refine ⟨_, parses, lists, fun number => ?_, ?_, lists.bindings_values⟩
  · rw [table, ← literals, ← Term.values_flatMap_mentions]
    exact Placeholders.value?_registerAll clauses.settings _ number
  · rw [lists.bindings_names]
    exact Path.flatMap_names_eq_nil_iff parses

/-- The code of a type that a filter tests is the literal of the key condition again, and the update
comes before the projection. -/
theorem compile_registers_leaves_shared_code :
    ∃ compiled, Clauses.compile
        { keyCondition := some (.compare (.path "id") .eq (.value (.string "S")))
          filter := some (.group .or
            [.hasType "tags[0].kind" .string, .beginsWith "kind" (.value (.string "a"))])
          update := some [("n", .set (.reference "kind" (some (.boolean true)))), ("id", .remove)]
          projection := ["n[1]"] } = .ok compiled ∧
      (∃ paths, Path.ParseAll ["id", "tags[0].kind", "kind", "n", "kind", "id", "n[1]"] paths ∧
        compiled.placeholders.Lists (paths.flatMap Path.names)
          [.string "S", .string "S", .string "a", .boolean true]) ∧
      compiled.placeholders.value? (":v" ++ Number.natText 3) = some (.boolean true) := by
  obtain ⟨compiled, ran, _⟩ : ∃ compiled : CompiledClauses, Clauses.compile
        { keyCondition := some (.compare (.path "id") .eq (.value (.string "S")))
          filter := some (.group .or
            [.hasType "tags[0].kind" .string, .beginsWith "kind" (.value (.string "a"))])
          update := some [("n", .set (.reference "kind" (some (.boolean true)))), ("id", .remove)]
          projection := ["n[1]"] } = .ok compiled ∧
      compiled.update = some "SET #n = if_not_exists(#kind, :v3) REMOVE #id" :=
    exists_ok_of_toOption (by decide +kernel)
  obtain ⟨paths, parses, lists, numbered, _, _⟩ := compile_registers_leaves ran
  exact ⟨compiled, ran, ⟨paths, parses, lists⟩, numbered 2⟩

end Clauses

end ItemExpr
