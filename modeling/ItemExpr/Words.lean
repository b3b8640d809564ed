/-! # The fixed words of expressions

The operators, functions and clause names of which expression texts are made, and the names of the
operations and clauses of a request, each with its one spelling. -/

namespace ItemExpr

/-- The **comparisons**. -/
inductive Comparison where
  /-- Equal. -/
  | eq
  /-- Not equal. -/
  | ne
  /-- Less than. -/
  | lt
  /-- Less than or equal. -/
  | le
  /-- Greater than. -/
  | gt
  /-- Greater than or equal. -/
  | ge
deriving DecidableEq, Repr

/-- The spelling of a comparison. -/
def Comparison.word : Comparison → String
  | .eq => "="
  | .ne => "<>"
  | .lt => "<"
  | .le => "<="
  | .gt => ">"
  | .ge => ">="

/-- The **connectives** that join conditions to a group. -/
inductive Connective where
  /-- Every member has to hold. -/
  | and
  /-- Some member has to hold. -/
  | or
deriving DecidableEq, Repr

/-- The spelling of a connective. -/
def Connective.word : Connective → String
  | .and => "AND"
  | .or => "OR"

/-- The **functions** of conditions and updates. -/
inductive Function where
  /-- Whether a path leads to an attribute. -/
  | attributeExists
  /-- Whether a path leads to no attribute. -/
  | attributeNotExists
  /-- Whether an attribute is of a type. -/
  | attributeType
  /-- Whether a text or byte string begins with another. -/
  | beginsWith
  /-- Whether a text contains another, or a set or list a member. -/
  | contains
  /-- The size of an attribute. -/
  | size
  /-- An attribute or, where there is none, another operand; in updates only. -/
  | ifNotExists
  /-- Two lists joined; in updates only. -/
  | listAppend
deriving DecidableEq, Repr

/-- The spelling of a function. -/
def Function.word : Function → String
  | .attributeExists => "attribute_exists"
  | .attributeNotExists => "attribute_not_exists"
  | .attributeType => "attribute_type"
  | .beginsWith => "begins_with"
  | .contains => "contains"
  | .size => "size"
  | .ifNotExists => "if_not_exists"
  | .listAppend => "list_append"

/-- The call of a function, its arguments separated by a comma and a space. -/
def Function.call (function : Function) (arguments : List String) : String :=
  function.word ++ "(" ++ ", ".intercalate arguments ++ ")"

/-- The four **parts of an update**. -/
inductive UpdatePart where
  /-- Attributes that get a value. -/
  | set
  /-- Attributes that go. -/
  | remove
  /-- Attributes that something is added to. -/
  | add
  /-- Sets that members are taken from. -/
  | delete
deriving DecidableEq, Repr

/-- The parts of an update, in the order in which they are written. -/
def UpdatePart.all : List UpdatePart := [.set, .remove, .add, .delete]

/-- The spelling of a part. -/
def UpdatePart.word : UpdatePart → String
  | .set => "SET"
  | .remove => "REMOVE"
  | .add => "ADD"
  | .delete => "DELETE"

/-- The place of a part in an update. -/
def UpdatePart.place : UpdatePart → Nat
  | .set => 0
  | .remove => 1
  | .add => 2
  | .delete => 3

/-- The **clauses** of a request. -/
inductive Clause where
  /-- The condition on the keys of a query. -/
  | keyCondition
  /-- The condition on the items found. -/
  | filter
  /-- The condition on an item to be written. -/
  | condition
  /-- The update of an item. -/
  | update
  /-- The attributes to be returned. -/
  | projection
deriving DecidableEq, Repr

/-- The name of a clause in error texts. -/
def Clause.label : Clause → String
  | .keyCondition => "key condition"
  | .filter => "filter"
  | .condition => "condition"
  | .update => "update"
  | .projection => "projection"

/-- The **operations** that requests are for. -/
inductive Operation where
  /-- Read one item. -/
  | getItem
  /-- Write one item. -/
  | putItem
  /-- Change one item. -/
  | updateItem
  /-- Take one item away. -/
  | deleteItem
  /-- Find items by their keys. -/
  | query
  /-- Go through all items. -/
  | scan
deriving DecidableEq, Repr

/-- The name of an operation. -/
def Operation.name : Operation → String
  | .getItem => "GetItem"
  | .putItem => "PutItem"
  | .updateItem => "UpdateItem"
  | .deleteItem => "DeleteItem"
  | .query => "Query"
  | .scan => "Scan"

/-- The clauses that an operation carries. -/
def Operation.clauses : Operation → List Clause
  | .getItem => [.projection]
  | .putItem => [.condition]
  | .updateItem => [.update, .condition]
  | .deleteItem => [.condition]
  | .query => [.keyCondition, .filter, .projection]
  | .scan => [.filter, .projection]

end ItemExpr
