import ItemExpr.CompileError
import ItemExpr.Condition.Basic
import ItemExpr.TableSchema

/-! # Conditions on keys

The key condition of a query is an AND, at any depth, of terms that each compare one key attribute
with literals: the partition key for equality, any other by a comparison other than `<>`, by
bounds, or by how it begins. `checkKeyCondition` accepts these and refuses all others; no key may
have two terms, and the partition key has to have one. `checkFilter` keeps key attributes out of
a filter. -/

namespace ItemExpr

/-- A **term of a key condition**: the attribute that it is on, and whether it is an equality. -/
structure KeyTerm where
  /-- The path of the attribute, as it was written. -/
  path : String
  /-- Whether the term is an equality. -/
  equality : Bool
deriving DecidableEq, Repr

namespace Condition

/-- By what an error names a condition: the first of its top-level attributes in the order of
their texts. -/
def place (condition : Condition) : String := condition.roots.head?.getD ""

/-- The term that a condition is, if it is one. -/
def keyTerm (condition : Condition) : Except CompileError KeyTerm :=
  let refused : Except CompileError KeyTerm := .error (.malformed condition.place .notKeyTerm)
  match condition with
  | .compare (.path path) comparison (.value _) =>
    if comparison = .ne then refused else .ok ⟨path, comparison = .eq⟩
  | .between (.path path) (.value _) (.value _) => .ok ⟨path, false⟩
  | .beginsWith path (.value _) => .ok ⟨path, false⟩
  | _ => refused

mutual

/-- The members of an AND, at any depth; any other group and any NOT is refused. -/
def conjuncts : Condition → Except CompileError (List Condition)
  | .group .and members => memberConjuncts members
  | .group .or members => .error (.malformed (place (.group .or members)) .notConjunctive)
  | .not condition => .error (.malformed (place (.not condition)) .notConjunctive)
  | condition => .ok [condition]

/-- The members of some conditions, in order. -/
def memberConjuncts : List Condition → Except CompileError (List Condition)
  | [] => .ok []
  | member :: members => do
    let first ← conjuncts member
    let rest ← memberConjuncts members
    pure (first ++ rest)

end

end Condition

/-- Check the terms of a key condition in order; `seen` are the attributes of the terms before.
The attributes of all terms are returned. -/
def checkTerms (key : List KeyAttribute) (seen : List String) :
    List Condition → Except CompileError (List String)
  | [] => .ok seen
  | condition :: conditions => do
    let term ← condition.keyTerm
    if term.path ∉ key.map KeyAttribute.name then .error (.malformed term.path .notKeyAttribute)
    else if term.path ∈ seen then .error (.malformed term.path .repeatedKey)
    else if keyOfRole? .partition key = some term.path ∧ term.equality = false then
      .error (.malformed term.path .partitionRange)
    else checkTerms key (term.path :: seen) conditions

/-- **Check a key condition** against a key. -/
def checkKeyCondition (condition : Condition) (key : List KeyAttribute) :
    Except CompileError Unit := do
  let terms ← condition.conjuncts
  let constrained ← checkTerms key [] terms
  match keyOfRole? .partition key with
  | none => .ok ()
  | some partition =>
    if partition ∈ constrained then .ok () else .error (.malformed partition .noPartition)

/-- **Check a filter** against a key: none of its top-level attributes is a key attribute. -/
def checkFilter (filter : Condition) (key : List KeyAttribute) : Except CompileError Unit :=
  match key.find? fun entry => entry.name ∈ filter.roots with
  | some entry => .error (.malformed entry.name .filteredKey)
  | none => .ok ()

end ItemExpr
