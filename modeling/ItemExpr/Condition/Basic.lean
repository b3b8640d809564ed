import ItemExpr.AttributeValue.Summary
import ItemExpr.Path
import ItemExpr.Words

/-! # Conditions

A `Condition` says what an item has to be like. Its tests are on `Operand`s, which are attributes,
sizes of attributes or literals; groups join conditions with AND or OR. Paths are kept as text.

Conditions are built from a `Predicate`, a condition still without its attribute, from a
`Template` of predicates by path, and with `Condition.all`, `Condition.any`, `Condition.and` and
`Condition.or`. -/

namespace ItemExpr

/-- What a test is **on**. -/
inductive Operand where
  /-- An attribute. -/
  | path (path : String)
  /-- The size of an attribute. -/
  | size (path : String)
  /-- A literal. -/
  | value (value : AttributeValue)
deriving Repr

/-- A **condition** on an item. -/
inductive Condition where
  /-- Two operands compare. -/
  | compare (left : Operand) (comparison : Comparison) (right : Operand)
  /-- An operand lies between two others, or is one of them. -/
  | between (operand lower upper : Operand)
  /-- An operand is among some candidates. -/
  | among (operand : Operand) (candidates : List Operand)
  /-- All or some conditions hold. -/
  | group (connective : Connective) (members : List Condition)
  /-- A condition does not hold. -/
  | not (condition : Condition)
  /-- An attribute exists or, if `negated`, does not. -/
  | exists (path : String) (negated : Bool)
  /-- An attribute is of a type. -/
  | hasType (path : String) (type : AttributeType)
  /-- An attribute begins with an operand. -/
  | beginsWith (path : String) (start : Operand)
  /-- An attribute contains an operand. -/
  | contains (path : String) (element : Operand)
deriving Repr, Inhabited

/-! ### Equality -/

/-- Whether two operands are equal. -/
def Operand.same : Operand → Operand → Bool
  | .path a, .path b => a == b
  | .size a, .size b => a == b
  | .value a, .value b => a == b
  | _, _ => false

instance : BEq Operand := ⟨Operand.same⟩

mutual

/-- Whether two conditions are the same tree, with equal literals. -/
def Condition.same : Condition → Condition → Bool
  | .compare a c b, .compare a' c' b' => a == a' && c == c' && b == b'
  | .between a l u, .between a' l' u' => a == a' && l == l' && u == u'
  | .among a cs, .among a' cs' => a == a' && cs == cs'
  | .group c ms, .group c' ms' => c == c' && Condition.sameMembers ms ms'
  | .not c, .not c' => Condition.same c c'
  | .exists p n, .exists p' n' => p == p' && n == n'
  | .hasType p t, .hasType p' t' => p == p' && t == t'
  | .beginsWith p s, .beginsWith p' s' => p == p' && s == s'
  | .contains p e, .contains p' e' => p == p' && e == e'
  | _, _ => false

/-- Whether two lists of conditions are the same. -/
def Condition.sameMembers : List Condition → List Condition → Bool
  | [], [] => true
  | a :: as, b :: bs => Condition.same a b && Condition.sameMembers as bs
  | _, _ => false

end

instance : BEq Condition := ⟨Condition.same⟩

/-! ### The attributes of a condition -/

/-- The path of an operand, if it has one. -/
def Operand.path? : Operand → Option String
  | .path text => some text
  | .size text => some text
  | .value _ => none

/-- Add the top-level attribute of an operand to a set, if it has one. -/
def Operand.addRoot (set : List String) : Operand → List String
  | .path text => Members.insert (Path.rootText text) set
  | .size text => Members.insert (Path.rootText text) set
  | .value _ => set

namespace Condition

mutual

/-- The paths of a condition, from left to right. -/
def paths : Condition → List String
  | .compare left _ right => [left, right].filterMap Operand.path?
  | .between operand lower upper => [operand, lower, upper].filterMap Operand.path?
  | .among operand candidates => (operand :: candidates).filterMap Operand.path?
  | .group _ members => memberPaths members
  | .not condition => paths condition
  | .exists path _ => [path]
  | .hasType path _ => [path]
  | .beginsWith path start => path :: [start].filterMap Operand.path?
  | .contains path element => path :: [element].filterMap Operand.path?

/-- The paths of some conditions, from left to right. -/
def memberPaths : List Condition → List String
  | [] => []
  | member :: members => paths member ++ memberPaths members

end

/-- The **top-level attributes** of a condition: what stands before the first point or bracket of
each of its paths, in increasing order and each once. -/
def roots (condition : Condition) : List String :=
  Members.distinct (condition.paths.map Path.rootText)

mutual

/-- Add the **top-level attributes** of a condition to a set that is there. -/
def addRoots (set : List String) : Condition → List String
  | .compare left _ right => [left, right].foldl Operand.addRoot set
  | .between operand lower upper => [operand, lower, upper].foldl Operand.addRoot set
  | .among operand candidates => (operand :: candidates).foldl Operand.addRoot set
  | .group _ members => addMemberRoots set members
  | .not condition => addRoots set condition
  | .exists path _ => Members.insert (Path.rootText path) set
  | .hasType path _ => Members.insert (Path.rootText path) set
  | .beginsWith path start => start.addRoot (Members.insert (Path.rootText path) set)
  | .contains path element => element.addRoot (Members.insert (Path.rootText path) set)

/-- Add the top-level attributes of some conditions to a set, one condition after the other. -/
def addMemberRoots (set : List String) : List Condition → List String
  | [] => set
  | member :: members => addMemberRoots (addRoots set member) members

end

/-! ### Joining conditions -/

/-- All conditions hold. -/
def all (conditions : List Condition) : Condition := .group .and conditions

/-- Some condition holds. -/
def any (conditions : List Condition) : Condition := .group .or conditions

/-- Join a condition to another: at the end of it, if that is a group of this connective. -/
def join (connective : Connective) (left right : Condition) : Condition :=
  match left with
  | .group connective' members =>
    if connective' = connective then .group connective (members ++ [right])
    else .group connective [left, right]
  | left => .group connective [left, right]

/-- Both conditions hold. -/
def and (left right : Condition) : Condition := join .and left right

/-- One of two conditions holds. -/
def or (left right : Condition) : Condition := join .or left right

@[simp] theorem join_group (connective : Connective) (members : List Condition)
    (right : Condition) :
    join connective (.group connective members) right = .group connective (members ++ [right]) := by
  simp [join]

end Condition

/-! ### Predicates and templates -/

/-- A **predicate**: a condition that waits for its attribute. -/
inductive Predicate where
  /-- The attribute compares with an operand. -/
  | compare (comparison : Comparison) (right : Operand)
  /-- The attribute lies between two operands. -/
  | between (lower upper : Operand)
  /-- The attribute is among some candidates. -/
  | among (candidates : List Operand)
  /-- The attribute exists or, if `negated`, does not. -/
  | exists (negated : Bool)
  /-- The attribute is of a type. -/
  | hasType (type : AttributeType)
  /-- The attribute begins with an operand. -/
  | beginsWith (start : Operand)
  /-- The attribute contains an operand. -/
  | contains (element : Operand)
  /-- A predicate does not hold. -/
  | not (predicate : Predicate)
  /-- All predicates hold. -/
  | all (predicates : List Predicate)
  /-- Some predicate holds. -/
  | any (predicates : List Predicate)
deriving Repr, Inhabited

namespace Predicate

/-- The attribute equals a literal. -/
def equals (value : AttributeValue) : Predicate := .compare .eq (.value value)

mutual

/-- The condition that a predicate makes **on** an attribute. -/
def on (path : String) : Predicate → Condition
  | .compare comparison right => .compare (.path path) comparison right
  | .between lower upper => .between (.path path) lower upper
  | .among candidates => .among (.path path) candidates
  | .exists negated => .exists path negated
  | .hasType type => .hasType path type
  | .beginsWith start => .beginsWith path start
  | .contains element => .contains path element
  | .not predicate => .not (on path predicate)
  | .all predicates => .group .and (onEach path predicates)
  | .any predicates => .group .or (onEach path predicates)

/-- The conditions that some predicates make on one attribute. -/
def onEach (path : String) : List Predicate → List Condition
  | [] => []
  | predicate :: predicates => on path predicate :: onEach path predicates

end

end Predicate

/-- A **template**: predicates by path, in order. All of them are meant. -/
abbrev Template := List (String × Predicate)

/-- The condition of a template: that of its only entry, or the AND of all of them. -/
def Template.condition (template : Template) : Condition :=
  match template with
  | [(path, predicate)] => predicate.on path
  | entries => .group .and (entries.map fun entry => entry.2.on entry.1)

end ItemExpr
