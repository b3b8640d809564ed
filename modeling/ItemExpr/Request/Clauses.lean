import ItemExpr.Condition.Compile
import ItemExpr.Request.Input
import ItemExpr.Request.KeyCondition
import ItemExpr.Update.Compile

/-! # The clauses of a request

`Clauses` collects what one request is to say: a key condition, a filter, a condition, an update
and a projection, each of them optional and each open to additions. `Clauses.compile` compiles them
in this order on one table of placeholders, whatever the order in which they were given.

A projection is a list of paths to be returned. In its text each path stands once, at its first
place, with commas between; the text of no paths is empty.

`applyToGet` and its five companions put the compiled clauses into the request of an operation.
They refuse clauses that the operation does not carry, and a refused request stays as it was. -/

namespace ItemExpr

/-! ### Projections -/

namespace Projection

/-- The texts of paths, each once; `before` are the texts so far, in order. -/
def compilePaths (before : List String) : List String → Compile (List String)
  | [] => pure before
  | path :: paths => do
    let text ← Compile.path path
    compilePaths (if text ∈ before then before else before ++ [text]) paths

/-- The **text of a projection**. -/
def compile (paths : List String) : Compile String :=
  Compile.transaction do
    let texts ← compilePaths [] paths
    Compile.limitLength .projection (", ".intercalate texts)

end Projection

/-! ### Collecting clauses -/

/-- The **clauses** of one request. -/
structure Clauses where
  /-- The settings of the compilers. -/
  settings : Settings := {}
  /-- The condition on the key. -/
  keyCondition : Option Condition := none
  /-- The condition on the items found. -/
  filter : Option Condition := none
  /-- The condition on the item that is there. -/
  condition : Option Condition := none
  /-- The update. -/
  update : Option Update := none
  /-- The paths to be returned. -/
  projection : List String := []
deriving Repr

/-- The **compiled clauses** of one request. -/
structure CompiledClauses where
  /-- The condition on the key. -/
  keyCondition : Option String
  /-- The condition on the items found. -/
  filter : Option String
  /-- The condition on the item that is there. -/
  condition : Option String
  /-- The update. -/
  update : Option String
  /-- The paths to be returned. -/
  projection : Option String
  /-- What the placeholders in all of them stand for. -/
  placeholders : Placeholders
deriving Repr

namespace Clauses

/-! ### Adding to clauses -/

/-- A condition in addition to one that may be there. -/
def conjoin (before : Option Condition) (condition : Condition) : Condition :=
  match before with
  | none => condition
  | some before => before.and condition

/-- Add a key condition. -/
def addKeyCondition (clauses : Clauses) (condition : Condition) : Clauses :=
  { clauses with keyCondition := some (conjoin clauses.keyCondition condition) }

/-- Add a filter. -/
def addFilter (clauses : Clauses) (condition : Condition) : Clauses :=
  { clauses with filter := some (conjoin clauses.filter condition) }

/-- Add a condition. -/
def addCondition (clauses : Clauses) (condition : Condition) : Clauses :=
  { clauses with condition := some (conjoin clauses.condition condition) }

/-- Add an update: its actions follow those that are there. -/
def addUpdate (clauses : Clauses) (update : Update) : Clauses :=
  { clauses with update := some ((clauses.update.getD []) ++ update) }

/-- Add paths to the projection. -/
def addProjection (clauses : Clauses) (paths : List String) : Clauses :=
  { clauses with projection := clauses.projection ++ paths }

/-! ### Compiling -/

/-- Compile a clause that may be absent. -/
def compileOptional {α : Type} (compile : α → Compile String) :
    Option α → Compile (Option String)
  | none => pure none
  | some clause => do
    let text ← compile clause
    pure (some text)

/-- The texts of all clauses, on the table at hand. -/
def compileOn (clauses : Clauses) : Compile CompiledClauses := do
  let keyCondition ←
    compileOptional (Condition.compileClause .keyCondition) clauses.keyCondition
  let filter ← compileOptional (Condition.compileClause .filter) clauses.filter
  let condition ← compileOptional (Condition.compileClause .condition) clauses.condition
  let update ← compileOptional Update.compile clauses.update
  let projection ← compileOptional Projection.compile
    (if clauses.projection.isEmpty then none else some clauses.projection)
  let placeholders ← get
  pure { keyCondition, filter, condition, update, projection, placeholders }

/-- **Compile all clauses** on one new table. -/
def compile (clauses : Clauses) : Except CompileError CompiledClauses :=
  (clauses.compileOn.runOn (Placeholders.empty clauses.settings)).1

/-- The bindings of all clauses. -/
def bindings (clauses : Clauses) : Except CompileError Bindings :=
  clauses.compile.map fun compiled => compiled.placeholders.bindings

/-! ### Requests -/

/-- The clauses that are set, in order. -/
def present (clauses : Clauses) : List Clause :=
  [(Clause.keyCondition, clauses.keyCondition.isSome), (.filter, clauses.filter.isSome),
    (.condition, clauses.condition.isSome), (.update, clauses.update.isSome),
    (.projection, !clauses.projection.isEmpty)].filterMap
    fun (clause, isSet) => if isSet then some clause else none

/-- Refuse the first clause that an operation does not carry. -/
def checkSupported (clauses : Clauses) (operation : Operation) : Except CompileError Unit :=
  match clauses.present.find? fun clause => clause ∉ operation.clauses with
  | some clause => .error (.unsupported operation clause)
  | none => .ok ()

/-- Put the clauses into a request for one item. -/
def applyToGet (clauses : Clauses) (request : GetRequest) : Except CompileError GetRequest := do
  clauses.checkSupported .getItem
  let compiled ← clauses.compile
  pure { request with
    projection := compiled.projection
    names := compiled.placeholders.nameMap }

/-- Put the clauses into a request to write one item. -/
def applyToPut (clauses : Clauses) (request : PutRequest) : Except CompileError PutRequest := do
  clauses.checkSupported .putItem
  let compiled ← clauses.compile
  pure { request with
    condition := compiled.condition
    names := compiled.placeholders.nameMap
    values := compiled.placeholders.valueMap }

/-- Put the clauses into a request to change one item. There has to be an update. -/
def applyToUpdate (clauses : Clauses) (request : UpdateRequest) :
    Except CompileError UpdateRequest := do
  clauses.checkSupported .updateItem
  if clauses.update.isNone then .error .emptyUpdate
  else
    let compiled ← clauses.compile
    pure { request with
      update := compiled.update
      condition := compiled.condition
      names := compiled.placeholders.nameMap
      values := compiled.placeholders.valueMap }

/-- Put the clauses into a request to take one item away. -/
def applyToDelete (clauses : Clauses) (request : DeleteRequest) :
    Except CompileError DeleteRequest := do
  clauses.checkSupported .deleteItem
  let compiled ← clauses.compile
  pure { request with
    condition := compiled.condition
    names := compiled.placeholders.nameMap
    values := compiled.placeholders.valueMap }

/-- Check the key condition of a query on a key; there has to be one. -/
def checkKeys (clauses : Clauses) (schema : TableSchema) (key : List KeyAttribute) :
    Except CompileError Unit :=
  match clauses.keyCondition with
  | some condition => checkKeyCondition condition key
  | none =>
    .error (.malformed ((keyOfRole? .partition key).getD schema.name) .noKeyCondition)

/-- Check the filter of a query on a key, if there is one. -/
def checkFilters (clauses : Clauses) (key : List KeyAttribute) : Except CompileError Unit :=
  match clauses.filter with
  | some filter => checkFilter filter key
  | none => .ok ()

/-- Put the clauses into a query of a table or of its index of a name. -/
def applyToQuery (clauses : Clauses) (request : QueryRequest) (schema : TableSchema)
    (index : Option String) : Except CompileError QueryRequest := do
  clauses.checkSupported .query
  let key ← schema.keyOf index
  clauses.checkKeys schema key
  clauses.checkFilters key
  let compiled ← clauses.compile
  pure { request with
    table := schema.name
    index := index
    keyCondition := compiled.keyCondition
    filter := compiled.filter
    projection := compiled.projection
    names := compiled.placeholders.nameMap
    values := compiled.placeholders.valueMap }

/-- Put the clauses into a scan of a table or of its index of a name. -/
def applyToScan (clauses : Clauses) (request : ScanRequest) (schema : TableSchema)
    (index : Option String) : Except CompileError ScanRequest := do
  clauses.checkSupported .scan
  -- A scan has no key condition, but its index has to exist.
  let _ ← schema.keyOf index
  let compiled ← clauses.compile
  pure { request with
    table := schema.name
    index := index
    filter := compiled.filter
    projection := compiled.projection
    names := compiled.placeholders.nameMap
    values := compiled.placeholders.valueMap }

end Clauses

end ItemExpr
