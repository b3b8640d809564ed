import ItemExpr.AttributeValue.Basic
import ItemExpr.Path
import ItemExpr.Words

/-! # Why an expression is refused

Everything that can be wrong with a condition, an update, a projection or a request, found before
anything is sent. A `Defect` is attached to the path or attribute that it was found at. -/

namespace ItemExpr

/-- What an action of an update **takes as its literal**. -/
inductive LiteralKind where
  /-- A number. -/
  | number
  /-- A list. -/
  | list
  /-- A set. -/
  | set
  /-- A set or a number. -/
  | setOrNumber
deriving DecidableEq, Repr

/-- Whether a value is of a kind. -/
def LiteralKind.admits (kind : LiteralKind) (value : AttributeValue) : Bool :=
  match kind with
  | .number => value.type = .number
  | .list => value.type = .list
  | .set => value.isSet
  | .setOrNumber => value.isSet || value.type = .number

/-- The name of a kind. -/
def LiteralKind.phrase : LiteralKind → String
  | .number => "a number"
  | .list => "a list"
  | .set => "a set"
  | .setOrNumber => "a set or a number"

/-- A **defect** of a part of an expression. -/
inductive Defect where
  /-- A text is not a path. -/
  | path (defect : Path.Defect)
  /-- A membership test has no candidates. -/
  | noCandidates
  /-- A membership test has too many candidates. -/
  | tooManyCandidates (limit count : Nat)
  /-- A size stands where the function takes an attribute or a literal. -/
  | sizeArgument (function : Function)
  /-- Two actions of an update have the same target. -/
  | repeatedTarget
  /-- A literal is of the wrong kind for its action. -/
  | literalKind (expected : LiteralKind) (found : AttributeType)
  /-- A query has no key condition. -/
  | noKeyCondition
  /-- A key condition joins its terms by something other than AND. -/
  | notConjunctive
  /-- A term of a key condition does not compare an attribute with literals. -/
  | notKeyTerm
  /-- A term of a key condition is on an attribute that is no key. -/
  | notKeyAttribute
  /-- Two terms of a key condition are on the same attribute. -/
  | repeatedKey
  /-- The term on the partition key is not an equality. -/
  | partitionRange
  /-- No term of a key condition is on the partition key. -/
  | noPartition
  /-- A filter is on a key attribute. -/
  | filteredKey
deriving DecidableEq, Repr

/-- The text of a defect. -/
def Defect.reason : Defect → String
  | .path defect => defect.reason
  | .noCandidates => "IN requires at least one operand"
  | .tooManyCandidates limit count =>
    "IN accepts at most " ++ Number.natText limit ++ " operands, got " ++ Number.natText count
  | .sizeArgument function => function.word ++ " takes a value or an attribute, not size()"
  | .repeatedTarget => "attribute path appears in more than one update action"
  | .literalKind expected found => "expected " ++ expected.phrase ++ ", got " ++ found.code
  | .noKeyCondition => "query requires a key condition on the partition key"
  | .notConjunctive => "key condition supports only AND between its terms"
  | .notKeyTerm =>
    "key condition terms compare a key attribute with literal values using =, <, <=, >, >=, " ++
      "BETWEEN or begins_with"
  | .notKeyAttribute => "key condition may only reference key attributes"
  | .repeatedKey => "key condition constrains this key attribute more than once"
  | .partitionRange => "partition key only supports = in a key condition"
  | .noPartition => "key condition must constrain the partition key"
  | .filteredKey => "filter expression cannot reference a key attribute, use the key condition"

/-- Why an expression or a request is **refused**. -/
inductive CompileError where
  /-- An update has no actions. -/
  | emptyUpdate
  /-- A group of conditions has no members. -/
  | emptyGroup
  /-- A part of an expression has a defect, at this path or attribute. -/
  | malformed (place : String) (defect : Defect)
  /-- A request is for an index that the table does not have. -/
  | unknownIndex (table index : String)
  /-- A request has a clause that its operation does not carry. -/
  | unsupported (operation : Operation) (clause : Clause)
  /-- The text of a clause is too long. -/
  | tooLong (clause : Clause) (length limit : Nat)
deriving DecidableEq, Repr

/-- The text of a refusal. -/
def CompileError.message : CompileError → String
  | .emptyUpdate => "update expression has no actions"
  | .emptyGroup => "condition group has no sub-conditions"
  | .malformed place defect =>
    "malformed expression at '" ++ place ++ "': " ++ defect.reason
  | .unknownIndex table index => "table '" ++ table ++ "' has no index named '" ++ index ++ "'"
  | .unsupported operation clause =>
    operation.name ++ " does not accept a " ++ clause.label ++ " expression"
  | .tooLong clause length limit =>
    clause.label ++ " expression is " ++ Number.natText length ++ " bytes, limit is " ++
      Number.natText limit

end ItemExpr
