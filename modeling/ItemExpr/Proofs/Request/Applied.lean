import ItemExpr.Proofs.Request.Written

/-! # Requests with clauses in them

A service refuses a request whose expressions have a placeholder that its maps do not explain, and
also one whose maps explain a placeholder that no expression has. Neither is made by putting clauses
into a request: its maps have the placeholders of its expressions and no others
(`Clauses.apply_placeholders_exact`). Nothing is lost on the way from the compiled clauses, because
an operation takes every clause that it does not refuse. -/

namespace ItemExpr

/-- A **request** of any operation. -/
inductive Request where
  /-- Read one item. -/
  | get (request : GetRequest)
  /-- Write one item. -/
  | put (request : PutRequest)
  /-- Change one item. -/
  | update (request : UpdateRequest)
  /-- Take one item away. -/
  | delete (request : DeleteRequest)
  /-- Find items by their keys. -/
  | query (request : QueryRequest)
  /-- Go through all items. -/
  | scan (request : ScanRequest)
deriving Repr

namespace Request

/-- The operation of a request. -/
def operation : Request → Operation
  | .get _ => .getItem
  | .put _ => .putItem
  | .update _ => .updateItem
  | .delete _ => .deleteItem
  | .query _ => .query
  | .scan _ => .scan

/-- The **expressions** of a request; each of them may be missing. -/
def expressions : Request → List (Option String)
  | .get request => [request.projection]
  | .put request => [request.condition]
  | .update request => [request.update, request.condition]
  | .delete request => [request.condition]
  | .query request => [request.keyCondition, request.filter, request.projection]
  | .scan request => [request.filter, request.projection]

/-- The names by placeholder. -/
def names : Request → Entries String
  | .get request => request.names
  | .put request => request.names
  | .update request => request.names
  | .delete request => request.names
  | .query request => request.names
  | .scan request => request.names

/-- The values by placeholder; a request for one item has none. -/
def values : Request → Entries AttributeValue
  | .get _ => []
  | .put request => request.values
  | .update request => request.values
  | .delete request => request.values
  | .query request => request.values
  | .scan request => request.values

/-- A request with compiled clauses in it. A query and a scan get their target as well. -/
def fill (schema : TableSchema) (index : Option String) (compiled : CompiledClauses) :
    Request → Request
  | .get request => .get { request with
      projection := compiled.projection
      names := compiled.placeholders.nameMap }
  | .put request => .put { request with
      condition := compiled.condition
      names := compiled.placeholders.nameMap
      values := compiled.placeholders.valueMap }
  | .update request => .update { request with
      update := compiled.update
      condition := compiled.condition
      names := compiled.placeholders.nameMap
      values := compiled.placeholders.valueMap }
  | .delete request => .delete { request with
      condition := compiled.condition
      names := compiled.placeholders.nameMap
      values := compiled.placeholders.valueMap }
  | .query request => .query { request with
      table := schema.name
      index := index
      keyCondition := compiled.keyCondition
      filter := compiled.filter
      projection := compiled.projection
      names := compiled.placeholders.nameMap
      values := compiled.placeholders.valueMap }
  | .scan request => .scan { request with
      table := schema.name
      index := index
      filter := compiled.filter
      projection := compiled.projection
      names := compiled.placeholders.nameMap
      values := compiled.placeholders.valueMap }

theorem operation_fill (schema : TableSchema) (index : Option String)
    (compiled : CompiledClauses) (request : Request) :
    (request.fill schema index compiled).operation = request.operation := by
  cases request <;> rfl

/-- Whether a placeholder of a kind, `#` or `:`, stands in an expression of a request. -/
def Mentions (request : Request) (mark : Char) (placeholder : String) : Prop :=
  ∃ text, some text ∈ request.expressions ∧ placeholder ∈ markedWords mark text.toList

end Request

namespace Clauses

/-- **Put the clauses into a request** of any operation. A query and a scan are of a table or of its
index of a name. -/
def apply (clauses : Clauses) (schema : TableSchema) (index : Option String) :
    Request → Except CompileError Request
  | .get request => (clauses.applyToGet request).map .get
  | .put request => (clauses.applyToPut request).map .put
  | .update request => (clauses.applyToUpdate request).map .update
  | .delete request => (clauses.applyToDelete request).map .delete
  | .query request => (clauses.applyToQuery request schema index).map .query
  | .scan request => (clauses.applyToScan request schema index).map .scan

/-- An operation refuses no clauses exactly if it carries all that are set. -/
theorem checkSupported_eq_ok_iff {clauses : Clauses} {operation : Operation} :
    clauses.checkSupported operation = .ok () ↔
      ∀ clause ∈ clauses.present, clause ∈ operation.clauses := by
  rw [checkSupported]
  split
  · next clause found =>
    have refused : clause ∉ operation.clauses := by simpa using List.find?_some found
    exact iff_of_false nofun fun carried =>
      refused (carried clause (List.mem_of_find?_eq_some found))
  · next none =>
    refine iff_of_true rfl fun clause set => ?_
    simpa using List.find?_eq_none.1 none clause set

/-- Whether a request carries some compiled clauses: its expressions are the texts of the clauses
that its operation carries, and its maps are those of the table. The map of values is missing in a
request for one item. -/
structure Carries (request : Request) (compiled : CompiledClauses) : Prop where
  /-- The expressions are texts of clauses. -/
  expressions : request.expressions = request.operation.clauses.map compiled.text
  /-- The names are those of the table. -/
  names : request.names = compiled.placeholders.nameMap
  /-- The values are those of the table, or there is no map for them. -/
  values : if request.operation = .getItem then request.values = []
    else request.values = compiled.placeholders.valueMap

/-- What is built of clauses is built of clauses that are not refused and that compile. -/
theorem checked_compile_eq_ok {clauses : Clauses} {operation : Operation} {α : Type}
    {build : CompiledClauses → α} {result : α}
    (built : (do
      clauses.checkSupported operation
      let compiled ← clauses.compile
      pure (build compiled)) = .ok result) :
    ∃ compiled, clauses.checkSupported operation = .ok () ∧ clauses.compile = .ok compiled ∧
      build compiled = result := by
  obtain ⟨_, supported, built⟩ := bind_eq_ok_iff.1 built
  obtain ⟨compiled, compiles, built⟩ := bind_eq_ok_iff.1 built
  exact ⟨compiled, supported, compiles, Except.ok.inj built⟩

/-- Whatever the operation, clauses that are not refused are compiled, and the request is filled
with them. -/
theorem eq_fill_of_apply {clauses : Clauses} {schema : TableSchema} {index : Option String}
    {request result : Request} (applied : clauses.apply schema index request = .ok result) :
    ∃ compiled, clauses.checkSupported request.operation = .ok () ∧
      clauses.compile = .ok compiled ∧ request.fill schema index compiled = result := by
  cases request with
  | get request =>
    obtain ⟨result, ran, rfl⟩ := map_eq_ok_iff.1 applied
    obtain ⟨compiled, supported, compiles, rfl⟩ := checked_compile_eq_ok ran
    exact ⟨compiled, supported, compiles, rfl⟩
  | put request =>
    obtain ⟨result, ran, rfl⟩ := map_eq_ok_iff.1 applied
    obtain ⟨compiled, supported, compiles, rfl⟩ := checked_compile_eq_ok ran
    exact ⟨compiled, supported, compiles, rfl⟩
  | update request =>
    obtain ⟨result, ran, rfl⟩ := map_eq_ok_iff.1 applied
    obtain ⟨_, supported, ran⟩ := bind_eq_ok_iff.1 ran
    -- Without an update the request is refused.
    split at ran
    · cases ran
    · obtain ⟨compiled, compiles, ran⟩ := bind_eq_ok_iff.1 ran
      cases ran
      exact ⟨compiled, supported, compiles, rfl⟩
  | delete request =>
    obtain ⟨result, ran, rfl⟩ := map_eq_ok_iff.1 applied
    obtain ⟨compiled, supported, compiles, rfl⟩ := checked_compile_eq_ok ran
    exact ⟨compiled, supported, compiles, rfl⟩
  | query request =>
    obtain ⟨result, ran, rfl⟩ := map_eq_ok_iff.1 applied
    obtain ⟨_, supported, ran⟩ := bind_eq_ok_iff.1 ran
    obtain ⟨key, _, ran⟩ := bind_eq_ok_iff.1 ran
    obtain ⟨_, _, ran⟩ := bind_eq_ok_iff.1 ran
    obtain ⟨_, _, ran⟩ := bind_eq_ok_iff.1 ran
    obtain ⟨compiled, compiles, ran⟩ := bind_eq_ok_iff.1 ran
    cases ran
    exact ⟨compiled, supported, compiles, rfl⟩
  | scan request =>
    obtain ⟨result, ran, rfl⟩ := map_eq_ok_iff.1 applied
    obtain ⟨_, supported, ran⟩ := bind_eq_ok_iff.1 ran
    obtain ⟨key, _, ran⟩ := bind_eq_ok_iff.1 ran
    obtain ⟨compiled, compiles, ran⟩ := bind_eq_ok_iff.1 ran
    cases ran
    exact ⟨compiled, supported, compiles, rfl⟩

/-- A request that is filled with compiled clauses carries them. -/
theorem carries_fill (schema : TableSchema) (index : Option String) (compiled : CompiledClauses)
    (request : Request) : Carries (request.fill schema index compiled) compiled := by
  cases request <;> exact ⟨rfl, rfl, rfl⟩

/-- Whatever the operation, clauses that are not refused are compiled, and the request carries
them. -/
theorem carries_of_apply {clauses : Clauses} {schema : TableSchema} {index : Option String}
    {request result : Request} (applied : clauses.apply schema index request = .ok result) :
    ∃ compiled, clauses.checkSupported result.operation = .ok () ∧
      clauses.compile = .ok compiled ∧ Carries result compiled := by
  obtain ⟨compiled, supported, compiles, rfl⟩ := eq_fill_of_apply applied
  refine ⟨compiled, ?_, compiles, carries_fill schema index compiled request⟩
  rw [Request.operation_fill]
  exact supported

/-- The texts in a request that carries all clauses that are present are the texts of the
clauses. -/
theorem Carries.some_mem_expressions {request : Request} {compiled : CompiledClauses}
    (carries : Carries request compiled)
    (all : ∀ clause text, compiled.text clause = some text → clause ∈ request.operation.clauses)
    {text : String} : some text ∈ request.expressions ↔ some text ∈ compiled.texts := by
  rw [carries.expressions, List.mem_map]
  constructor
  · rintro ⟨clause, _, has⟩
    rw [← has]
    exact compiled.text_mem_texts clause
  · intro mem
    obtain ⟨clause, _, has⟩ := List.mem_map.1 mem
    exact ⟨clause, all clause text has, has⟩

/-- **No placeholder of a request dangles, and none is unused.** Whatever a request was before, once
clauses have been put into it the names of its expressions are those that its map explains, and so
are the values. -/
theorem apply_placeholders_exact {clauses : Clauses}
    (stem : Settings.isStem clauses.settings.stem = true) {schema : TableSchema}
    {index : Option String} {request result : Request}
    (applied : clauses.apply schema index request = .ok result) (placeholder : String) :
    (result.Mentions '#' placeholder ↔ placeholder ∈ result.names.keys) ∧
      (result.Mentions ':' placeholder ↔ placeholder ∈ result.values.keys) := by
  obtain ⟨compiled, supported, compiles, carries⟩ := carries_of_apply applied
  obtain ⟨⟨registrations, table, shown⟩, present, unvalued⟩ := written_of_compile stem compiles
  have all : ∀ clause text, compiled.text clause = some text →
      clause ∈ result.operation.clauses := fun clause text has =>
    checkSupported_eq_ok_iff.1 supported clause (present clause text has)
  constructor
  · rw [carries.names, table, Placeholders.mem_keys_nameMap, ← table, ← shown, Request.Mentions]
    simp only [carries.some_mem_expressions all]
    rfl
  · have values := carries.values
    split at values
    · -- A request for one item has a projection only.
      next isGet =>
      rw [values, Request.Mentions]
      refine iff_of_false ?_ nofun
      rintro ⟨text, mem, marked⟩
      rw [carries.expressions, isGet] at mem
      exact unvalued text (List.mem_singleton.1 mem).symm placeholder marked
    · rw [values, table, Placeholders.mem_keys_valueMap, ← table, ← shown, Request.Mentions]
      simp only [carries.some_mem_expressions all]
      rfl

/-- A query that had a name of its own before, with a filter, and with a projection that says one
path twice: what its expressions mention is what its maps explain. -/
theorem apply_placeholders_exact_query :
    ∃ result, (Clauses.apply
        { keyCondition := some (.compare (.path "id") .eq (.value (.boolean true)))
          filter := some (.compare (.size "first name") .ge (.path "tags"))
          projection := ["tags[1]", "id", "tags[1]"] }
        { name := "people", key := [⟨"id", .partition⟩] } none
        (.query { names := [("#old", "old")] })) = .ok result ∧
      result.expressions = [some "#id = :v1", some "size(#n1) >= #tags", some "#tags[1], #id"] ∧
      ∀ placeholder, (result.Mentions '#' placeholder ↔ placeholder ∈ result.names.keys) ∧
        (result.Mentions ':' placeholder ↔ placeholder ∈ result.values.keys) := by
  generalize applied : Clauses.apply
    { keyCondition := some (.compare (.path "id") .eq (.value (.boolean true)))
      filter := some (.compare (.size "first name") .ge (.path "tags"))
      projection := ["tags[1]", "id", "tags[1]"] }
    { name := "people", key := [⟨"id", .partition⟩] } none
    (.query { names := [("#old", "old")] }) = outcome
  have yields : outcome.toOption.map Request.expressions =
      some [some "#id = :v1", some "size(#n1) >= #tags", some "#tags[1], #id"] := by
    rw [← applied]
    decide +kernel
  cases outcome with
  | error refusal => cases yields
  | ok result =>
    exact ⟨result, rfl, Option.some.inj yields, apply_placeholders_exact (by decide) applied⟩

end Clauses

end ItemExpr
