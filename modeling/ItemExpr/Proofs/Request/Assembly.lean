import ItemExpr.Proofs.Request.Applied

/-! # Assembling requests in place

A caller keeps one request and puts clauses into it again and again. Field after field is assigned,
and whatever is assigned before a refusal stays (`Assembly`), so that the order of checks and
assignments matters. `assembly_all_or_nothing` says that nothing is assigned before the last thing
that can be refused, and that everything that an earlier set of clauses has left is assigned anew:
the request is as it was, or it carries these clauses and no others. -/

namespace ItemExpr

/-! ### Assemblies -/

/-- An **assembly** of a request in place: what has been assigned by a refusal stays assigned. -/
abbrev Assembly (ρ : Type) := ExceptT CompileError (StateM ρ)

namespace Assembly

variable {ρ α : Type}

/-- Assemble a request: how it ends, and the request by then. -/
def runOn (assembly : Assembly ρ α) (request : ρ) : Except CompileError α × ρ :=
  (assembly.run.run request).run

/-- Go on with a result, or be refused with it. -/
def check (outcome : Except CompileError α) : Assembly ρ α := fun request => (outcome, request)

/-- Change the request. -/
def assign (change : ρ → ρ) : Assembly ρ Unit := fun request => (.ok (), change request)

/-- How an assembly ends that is refused before anything is assigned. -/
def settle (request : ρ) : Except CompileError ρ → Except CompileError Unit × ρ
  | .ok result => (.ok (), result)
  | .error refusal => (.error refusal, request)

/-- Whether an assembly is **all or nothing**: it turns a request into what a function makes of it,
or it is refused as the function is and leaves the request as it was. -/
def AllOrNothing (assembly : Assembly ρ Unit) (make : ρ → Except CompileError ρ) : Prop :=
  ∀ request, assembly.runOn request = settle request (make request)

/-- What comes first may be checked. -/
theorem AllOrNothing.check {outcome : Except CompileError α} {next : α → Assembly ρ Unit}
    {make : α → ρ → Except CompileError ρ} (all : ∀ a, (next a).AllOrNothing (make a)) :
    AllOrNothing (Assembly.check outcome >>= next) fun request =>
      outcome >>= fun a => make a request := by
  intro request
  cases outcome with
  | error refusal => rfl
  | ok a => exact all a request

/-- Assignments make the request that has all of them. -/
theorem AllOrNothing.assigned {assembly : Assembly ρ Unit} {change : ρ → ρ}
    (runs : ∀ request, assembly.runOn request = (.ok (), change request)) :
    assembly.AllOrNothing fun request => pure (change request) :=
  runs

end Assembly

open Assembly

namespace Clauses

/-- Assemble a request for one item. -/
def assembleGet (clauses : Clauses) : Assembly GetRequest Unit := do
  check (clauses.checkSupported .getItem)
  let compiled ← check clauses.compile
  assign fun r => { r with projection := compiled.projection }
  assign fun r => { r with names := compiled.placeholders.nameMap }

/-- Assemble a request to write one item. -/
def assemblePut (clauses : Clauses) : Assembly PutRequest Unit := do
  check (clauses.checkSupported .putItem)
  let compiled ← check clauses.compile
  assign fun r => { r with names := compiled.placeholders.nameMap }
  assign fun r => { r with values := compiled.placeholders.valueMap }
  assign fun r => { r with condition := compiled.condition }

/-- Assemble a request to change one item. -/
def assembleUpdate (clauses : Clauses) : Assembly UpdateRequest Unit := do
  check (clauses.checkSupported .updateItem)
  check (if clauses.update.isNone then .error .emptyUpdate else .ok ())
  let compiled ← check clauses.compile
  assign fun r => { r with names := compiled.placeholders.nameMap }
  assign fun r => { r with values := compiled.placeholders.valueMap }
  assign fun r => { r with update := compiled.update }
  assign fun r => { r with condition := compiled.condition }

/-- Assemble a request to take one item away. -/
def assembleDelete (clauses : Clauses) : Assembly DeleteRequest Unit := do
  check (clauses.checkSupported .deleteItem)
  let compiled ← check clauses.compile
  assign fun r => { r with names := compiled.placeholders.nameMap }
  assign fun r => { r with values := compiled.placeholders.valueMap }
  assign fun r => { r with condition := compiled.condition }

/-- Assemble a query. -/
def assembleQuery (clauses : Clauses) (schema : TableSchema) (index : Option String) :
    Assembly QueryRequest Unit := do
  check (clauses.checkSupported .query)
  let key ← check (schema.keyOf index)
  check (clauses.checkKeys schema key)
  check (clauses.checkFilters key)
  let compiled ← check clauses.compile
  assign fun r => { r with table := schema.name }
  assign fun r => { r with index := index }
  assign fun r => { r with names := compiled.placeholders.nameMap }
  assign fun r => { r with values := compiled.placeholders.valueMap }
  assign fun r => { r with keyCondition := compiled.keyCondition }
  assign fun r => { r with filter := compiled.filter }
  assign fun r => { r with projection := compiled.projection }

/-- Assemble a scan. -/
def assembleScan (clauses : Clauses) (schema : TableSchema) (index : Option String) :
    Assembly ScanRequest Unit := do
  check (clauses.checkSupported .scan)
  let _ ← check (schema.keyOf index)
  let compiled ← check clauses.compile
  assign fun r => { r with table := schema.name }
  assign fun r => { r with index := index }
  assign fun r => { r with names := compiled.placeholders.nameMap }
  assign fun r => { r with values := compiled.placeholders.valueMap }
  assign fun r => { r with filter := compiled.filter }
  assign fun r => { r with projection := compiled.projection }

variable (clauses : Clauses) (schema : TableSchema) (index : Option String)

theorem assembleGet_allOrNothing : clauses.assembleGet.AllOrNothing clauses.applyToGet :=
  .check fun _ => .check fun _ => .assigned fun _ => rfl

theorem assemblePut_allOrNothing : clauses.assemblePut.AllOrNothing clauses.applyToPut :=
  .check fun _ => .check fun _ => .assigned fun _ => rfl

theorem assembleUpdate_allOrNothing :
    clauses.assembleUpdate.AllOrNothing clauses.applyToUpdate := by
  refine .check fun _ request => ?_
  -- Without an update both are refused, and with one neither is.
  by_cases missing : clauses.update.isNone = true
  · simp only [if_pos missing]
    rfl
  · simp only [if_neg missing]
    exact AllOrNothing.check (fun _ => .assigned fun _ => rfl) request

theorem assembleDelete_allOrNothing : clauses.assembleDelete.AllOrNothing clauses.applyToDelete :=
  .check fun _ => .check fun _ => .assigned fun _ => rfl

theorem assembleQuery_allOrNothing : (clauses.assembleQuery schema index).AllOrNothing
    fun request => clauses.applyToQuery request schema index :=
  .check fun _ => .check fun _ => .check fun _ => .check fun _ => .check fun _ =>
    .assigned fun _ => rfl

theorem assembleScan_allOrNothing : (clauses.assembleScan schema index).AllOrNothing
    fun request => clauses.applyToScan request schema index :=
  .check fun _ => .check fun _ => .check fun _ => .assigned fun _ => rfl

end Clauses

/-! ### Fields -/

namespace Request

/-- The expression in the field for a clause; a request has no fields for the clauses that its
operation does not carry. -/
def expression : Request → Clause → Option String
  | .get request, .projection => request.projection
  | .put request, .condition => request.condition
  | .update request, .update => request.update
  | .update request, .condition => request.condition
  | .delete request, .condition => request.condition
  | .query request, .keyCondition => request.keyCondition
  | .query request, .filter => request.filter
  | .query request, .projection => request.projection
  | .scan request, .filter => request.filter
  | .scan request, .projection => request.projection
  | _, _ => none

/-- The table of a request, and the index of a query or a scan. -/
def target : Request → String × Option String
  | .get request => (request.table, none)
  | .put request => (request.table, none)
  | .update request => (request.table, none)
  | .delete request => (request.table, none)
  | .query request => (request.table, request.index)
  | .scan request => (request.table, request.index)

/-- Whether a request searches a table or an index. -/
def searches : Request → Bool
  | .query _ | .scan _ => true
  | _ => false

/-- A request without what clauses put into it: its expressions and maps, and the target of a
search. -/
def rest : Request → Request
  | .get request => .get { request with projection := none, names := [] }
  | .put request => .put { request with condition := none, names := [], values := [] }
  | .update request =>
    .update { request with update := none, condition := none, names := [], values := [] }
  | .delete request => .delete { request with condition := none, names := [], values := [] }
  | .query request =>
    .query { request with
      table := "", index := none, keyCondition := none, filter := none, projection := none
      names := [], values := [] }
  | .scan request =>
    .scan { request with
      table := "", index := none, filter := none, projection := none, names := [], values := [] }

/-- The expressions of a request are those in the fields for the clauses of its operation. -/
theorem expressions_eq_map (request : Request) :
    request.expressions = request.operation.clauses.map request.expression := by
  cases request <;> rfl

/-- There is no field for a clause that the operation does not carry. -/
theorem expression_eq_none {request : Request} {clause : Clause}
    (other : clause ∉ request.operation.clauses) : request.expression clause = none := by
  cases request <;> cases clause <;>
    first | rfl | exact absurd (by simp [operation, Operation.clauses]) other

variable (schema : TableSchema) (index : Option String) (compiled : CompiledClauses)
  (request : Request)

/-- Compiled clauses leave the rest of a request. -/
theorem rest_fill : (request.fill schema index compiled).rest = request.rest := by
  cases request <;> rfl

/-- With compiled clauses a search gets the target that was asked for. -/
theorem target_fill : (request.fill schema index compiled).target =
    if request.searches then (schema.name, index) else request.target := by
  cases request <;> rfl

end Request

namespace Clauses

/-- Assemble a request of any operation. -/
def assemble (clauses : Clauses) (schema : TableSchema) (index : Option String) :
    Request → Except CompileError Unit × Request
  | .get request => (clauses.assembleGet.runOn request).map id .get
  | .put request => (clauses.assemblePut.runOn request).map id .put
  | .update request => (clauses.assembleUpdate.runOn request).map id .update
  | .delete request => (clauses.assembleDelete.runOn request).map id .delete
  | .query request => ((clauses.assembleQuery schema index).runOn request).map id .query
  | .scan request => ((clauses.assembleScan schema index).runOn request).map id .scan

/-- How an assembly ends is not changed by what the request is then part of. -/
theorem map_settle {ρ σ : Type} (wrap : ρ → σ) (request : ρ) (outcome : Except CompileError ρ) :
    (settle request outcome).map id wrap = settle (wrap request) (outcome.map wrap) := by
  cases outcome <;> rfl

/-- An assembly in place makes the request that clauses are put into, or leaves it as it was. -/
theorem assemble_eq_settle (clauses : Clauses) (schema : TableSchema) (index : Option String)
    (request : Request) :
    clauses.assemble schema index request =
      settle request (clauses.apply schema index request) := by
  cases request with
  | get request => rw [assemble, assembleGet_allOrNothing, map_settle, apply]
  | put request => rw [assemble, assemblePut_allOrNothing, map_settle, apply]
  | update request => rw [assemble, assembleUpdate_allOrNothing, map_settle, apply]
  | delete request => rw [assemble, assembleDelete_allOrNothing, map_settle, apply]
  | query request => rw [assemble, assembleQuery_allOrNothing, map_settle, apply]
  | scan request => rw [assemble, assembleScan_allOrNothing, map_settle, apply]

/-! ### What a request is made of -/

/-- A clause has a compiled text exactly if it is there. -/
theorem isSome_of_compileOptional {α : Type} {compile : α → Compile String} {clause : Option α}
    {table after : Placeholders} {text : Option String}
    (ran : (compileOptional compile clause).runOn table = (.ok text, after)) :
    text.isSome = clause.isSome := by
  rcases runOn_compileOptional_eq_ok.1 ran with ⟨rfl, rfl, _⟩ | ⟨_, _, rfl, rfl, _⟩
  · rfl
  · rfl

/-- **The compiled texts are those of the clauses that are set.** -/
theorem isSome_text_iff {clauses : Clauses} {compiled : CompiledClauses}
    (ran : clauses.compile = .ok compiled) (clause : Clause) :
    (compiled.text clause).isSome = true ↔ clause ∈ clauses.present := by
  obtain ⟨_, _, _, _, key, filtered, conditioned, updated, projected⟩ := compile_eq_ok ran
  rw [mem_present]
  cases clause with
  | keyCondition => exact Eq.congr_left (isSome_of_compileOptional key)
  | filter => exact Eq.congr_left (isSome_of_compileOptional filtered)
  | condition => exact Eq.congr_left (isSome_of_compileOptional conditioned)
  | update => exact Eq.congr_left (isSome_of_compileOptional updated)
  | projection =>
    refine (Eq.congr_left (isSome_of_compileOptional projected)).trans ?_
    cases clauses.projection <;> simp

/-- Whether a request is what clauses make of another one: the compiled texts of the clauses that
are set stand in their fields, there is no other expression, the maps are those of the table, a
search has the target that was asked for, and all the rest is as it was. -/
structure Makes (clauses : Clauses) (schema : TableSchema) (index : Option String)
    (compiled : CompiledClauses) (request result : Request) : Prop where
  /-- Every clause that is set has its compiled text in its field. -/
  set : ∀ clause ∈ clauses.present, ∃ text, compiled.text clause = some text ∧
    result.expression clause = some text
  /-- No other field has an expression. -/
  unset : ∀ clause, clause ∉ clauses.present → result.expression clause = none
  /-- The names are those of the table. -/
  names : result.names = compiled.placeholders.nameMap
  /-- The values are those of the table; a request for one item has no map for them. -/
  values : result.operation ≠ .getItem → result.values = compiled.placeholders.valueMap
  /-- A search is of the table of the schema and of the index that was named. -/
  target : result.target =
    if request.searches then (schema.name, index) else request.target
  /-- The rest is as it was. -/
  rest : result.rest = request.rest

/-- A request that carries clauses has the compiled text of every clause that its operation
carries. -/
theorem Carries.expression {request : Request} {compiled : CompiledClauses}
    (carries : Carries request compiled) :
    ∀ clause ∈ request.operation.clauses, request.expression clause = compiled.text clause := by
  have same := carries.expressions
  rw [Request.expressions_eq_map] at same
  exact List.map_inj_left.1 same

/-- What clauses make of a request. -/
theorem makes_of_apply {clauses : Clauses} {schema : TableSchema} {index : Option String}
    {request result : Request} (applied : clauses.apply schema index request = .ok result) :
    ∃ compiled, clauses.compile = .ok compiled ∧
      clauses.Makes schema index compiled request result := by
  obtain ⟨compiled, supported, compiles, rfl⟩ := eq_fill_of_apply applied
  have carries := carries_fill schema index compiled request
  rw [← request.operation_fill schema index compiled] at supported
  have carried := checkSupported_eq_ok_iff.1 supported
  refine ⟨compiled, compiles, ?_, ?_, carries.names, ?_, request.target_fill schema index compiled,
    request.rest_fill schema index compiled⟩
  · intro clause set
    obtain ⟨text, has⟩ := Option.isSome_iff_exists.1 ((isSome_text_iff compiles clause).2 set)
    exact ⟨text, has, (carries.expression clause (carried clause set)).trans has⟩
  · intro clause unset
    by_cases field : clause ∈ (request.fill schema index compiled).operation.clauses
    · rw [carries.expression clause field, ← Option.not_isSome_iff_eq_none,
        isSome_text_iff compiles]
      exact unset
    · exact Request.expression_eq_none field
  · intro other
    have values := carries.values
    rwa [if_neg other] at values

/-! ### Earlier assemblies -/

/-- Clauses that were put into a request, and the target that was asked for. -/
structure Application where
  /-- The clauses. -/
  clauses : Clauses
  /-- The table. -/
  schema : TableSchema
  /-- The index, if it is one that is meant. -/
  index : Option String

/-- The request that is held after an application, whether it is refused or not. -/
def Application.held (request : Request) (application : Application) : Request :=
  (application.clauses.assemble application.schema application.index request).2

/-- An application keeps the rest of a request, refused or not. -/
theorem Application.rest_held (application : Application) (request : Request) :
    (held request application).rest = request.rest := by
  rw [held, assemble_eq_settle]
  cases applied : application.clauses.apply application.schema application.index request with
  | error refusal => rfl
  | ok result =>
    obtain ⟨compiled, _, _, rfl⟩ := eq_fill_of_apply applied
    exact request.rest_fill _ _ compiled

/-- Any number of applications keep the rest of a request. -/
theorem Application.rest_foldl_held (earlier : List Application) (request : Request) :
    (earlier.foldl held request).rest = request.rest := by
  induction earlier generalizing request with
  | nil => rfl
  | cons application earlier ih => rw [List.foldl_cons, ih, application.rest_held]

/-- What becomes of a request depends on its rest only. -/
theorem apply_rest (clauses : Clauses) (schema : TableSchema) (index : Option String)
    (request : Request) :
    clauses.apply schema index request.rest = clauses.apply schema index request := by
  cases request <;> rfl

/-- **Assembly is all or nothing, and free of history.** In place, clauses make of a request what
`apply` makes of it, or they are refused and leave it as it was in every field. If they are not
refused, the request has the compiled texts of the clauses that are set, no other expressions, the
maps of the table and the target that was asked for, and it has kept the rest. And whatever was
applied before, with or without success, the outcome is that of these clauses alone on the first
request. -/
theorem assembly_all_or_nothing (clauses : Clauses) (schema : TableSchema)
    (index : Option String) (request : Request) :
    (clauses.assemble schema index request =
      match clauses.apply schema index request with
      | .ok result => (.ok (), result)
      | .error refusal => (.error refusal, request)) ∧
    (∀ result, clauses.apply schema index request = .ok result →
      ∃ compiled, clauses.compile = .ok compiled ∧
        clauses.Makes schema index compiled request result) ∧
    ∀ earlier : List Application,
      clauses.apply schema index (earlier.foldl Application.held request) =
        clauses.apply schema index request := by
  refine ⟨?_, fun _ => makes_of_apply, fun earlier => ?_⟩
  · rw [assemble_eq_settle]
    cases clauses.apply schema index request <;> rfl
  · rw [← apply_rest, Application.rest_foldl_held, apply_rest]

/-- An update of a request that had a condition from before and was refused a filter since: there is
only the update in it, and what it gives back is what it was to give back. -/
theorem assembly_all_or_nothing_reused :
    ∃ result, Clauses.apply { update := some [("a", .remove)] } { name := "t", key := [] } none
        (([⟨{ update := some [("b", .remove)], condition := some (.exists "b" false) },
            { name := "t", key := [] }, none⟩,
          ⟨{ filter := some (.exists "b" false) }, { name := "t", key := [] }, none⟩] :
            List Application).foldl Application.held
          (.update { table := "t", returned := some .allNew })) = .ok result ∧
      result.expression .update = some "REMOVE #a" ∧ result.expression .condition = none ∧
      result.rest = .update { table := "t", returned := some .allNew } := by
  obtain ⟨_, makes, history⟩ := assembly_all_or_nothing { update := some [("a", .remove)] }
    { name := "t", key := [] } none (.update { table := "t", returned := some .allNew })
  obtain ⟨result, applied, updated⟩ : ∃ result, Clauses.apply { update := some [("a", .remove)] }
      { name := "t", key := [] } none (.update { table := "t", returned := some .allNew }) =
        .ok result ∧ Request.expression result .update = some "REMOVE #a" :=
    exists_ok_of_toOption (by decide +kernel)
  obtain ⟨_, _, made⟩ := makes result applied
  exact ⟨result, (history _).trans applied, updated, made.unset .condition (by decide), made.rest⟩

end Clauses

end ItemExpr
