import ItemExpr.Condition.Basic
import ItemExpr.Placeholders

/-! # Compiling conditions

Groups are only brackets: a group of one member means that member, and a group inside a group of
the same connective means its members in its place. `Condition.normal` takes both out, at every
depth. What is left of the groups are those of two members or more of which none is a group of the
same connective, and empty groups, which mean nothing and stay where they are.

The text of a condition follows its normal form: the members of a group stand side by side with
the connective between them, a member that is itself a group is in parentheses, and so is what NOT
applies to. Names and literals are replaced by placeholders from left to right.

A condition is refused if a group has no members, if a path is none, if a membership test has no
candidates or too many, if a function gets a size, or if the whole text is too long. Whether a
group has empty groups among its members is looked at before its members are. -/

namespace ItemExpr

/-! ### The normal form -/

namespace Condition

/-- A condition as members of a group of a connective: the members of a group of that connective
that is not empty, or the condition itself. -/
def splice (connective : Connective) : Condition → List Condition
  | .group connective' (first :: rest) =>
    if connective' = connective then first :: rest else [.group connective' (first :: rest)]
  | condition => [condition]

mutual

/-- The **normal form** of a condition. -/
def normal : Condition → Condition
  | .group _ [only] => normal only
  | .group connective members => .group connective (normalMembers connective members)
  | .not condition => .not (normal condition)
  | condition => condition

/-- The normal forms of the members of a group, same groups spliced in. -/
def normalMembers (connective : Connective) : List Condition → List Condition
  | [] => []
  | member :: members => splice connective (normal member) ++ normalMembers connective members

end

/-- Whether a condition is a group. -/
def isGroup : Condition → Bool
  | .group _ _ => true
  | _ => false

/-- Whether a condition is a group of no members. -/
def isEmptyGroup : Condition → Bool
  | .group _ [] => true
  | _ => false

@[simp] theorem normal_group_singleton (connective : Connective) (only : Condition) :
    normal (.group connective [only]) = normal only := by
  simp [normal]

@[simp] theorem normal_not (condition : Condition) :
    normal (.not condition) = .not (normal condition) := by
  simp [normal]

@[simp] theorem normalMembers_nil (connective : Connective) :
    normalMembers connective [] = [] := by
  simp [normalMembers]

@[simp] theorem normalMembers_cons (connective : Connective) (member : Condition)
    (members : List Condition) :
    normalMembers connective (member :: members) =
      splice connective (normal member) ++ normalMembers connective members := by
  simp [normalMembers]

theorem splice_ne_nil (connective : Connective) (condition : Condition) :
    splice connective condition ≠ [] := by
  unfold splice
  split
  · split <;> simp
  · simp

end Condition

/-! ### Texts -/

/-- The text of an operand. -/
def Operand.compile : Operand → Compile String
  | .path text => Compile.path text
  | .size text => do
    let target ← Compile.path text
    pure (Function.size.call [target])
  | .value literal => Compile.value literal

/-- The texts of operands, in order. -/
def Operand.compileAll : List Operand → Compile (List String)
  | [] => pure []
  | operand :: operands => do
    let text ← operand.compile
    let texts ← compileAll operands
    pure (text :: texts)

/-- By what an error names a test on an operand: its path, or a summary of the literal. -/
def Operand.place : Operand → String
  | .path text => text
  | .size text => text
  | .value literal => literal.summary

/-- Whether an operand is a size. -/
def Operand.isSize : Operand → Bool
  | .size _ => true
  | _ => false

namespace Condition

/-- The text of a membership test. -/
def compileAmong (operand : Operand) (candidates : List Operand) : Compile String := do
  let limit := (← get).settings.maxCandidates
  if candidates.isEmpty then Compile.refuse operand.place .noCandidates
  else if limit < candidates.length then
    Compile.refuse operand.place (.tooManyCandidates limit candidates.length)
  else
    let subject ← operand.compile
    let texts ← Operand.compileAll candidates
    pure (subject ++ " IN (" ++ ", ".intercalate texts ++ ")")

/-- The text of a function of an attribute and an argument, which is no size. -/
def compileFunction (function : Function) (path : String) (argument : Operand) :
    Compile String := do
  if argument.isSize then Compile.refuse path (.sizeArgument function)
  else
    let target ← Compile.path path
    let text ← argument.compile
    pure (function.call [target, text])

mutual

/-- The text of a condition in normal form. -/
def compileNormal : Condition → Compile String
  | .compare left comparison right => do
    let left ← left.compile
    let right ← right.compile
    pure (left ++ " " ++ comparison.word ++ " " ++ right)
  | .between operand lower upper => do
    let operand ← operand.compile
    let lower ← lower.compile
    let upper ← upper.compile
    pure (operand ++ " BETWEEN " ++ lower ++ " AND " ++ upper)
  | .among operand candidates => compileAmong operand candidates
  | .group connective members => do
    -- Looked at for the whole group before any member adds a placeholder.
    if members.isEmpty || members.any isEmptyGroup then throw .emptyGroup
    else
      let texts ← compileMembers members
      pure ((" " ++ connective.word ++ " ").intercalate texts)
  | .not condition => do
    let text ← compileNormal condition
    pure ("NOT (" ++ text ++ ")")
  | .exists path negated => do
    let target ← Compile.path path
    let function : Function := if negated then .attributeNotExists else .attributeExists
    pure (function.call [target])
  | .hasType path type => do
    let target ← Compile.path path
    let code ← Compile.value (.string type.code)
    pure (Function.attributeType.call [target, code])
  | .beginsWith path start => compileFunction .beginsWith path start
  | .contains path element => compileFunction .contains path element

/-- The texts of the members of a group, groups among them in parentheses. -/
def compileMembers : List Condition → Compile (List String)
  | [] => pure []
  | member :: members => do
    let text ← compileNormal member
    let texts ← compileMembers members
    pure ((if member.isGroup then "(" ++ text ++ ")" else text) :: texts)

end

/-- The **text of a condition** as a clause of a request. -/
def compileClause (clause : Clause) (condition : Condition) : Compile String :=
  Compile.transaction do
    let text ← compileNormal condition.normal
    Compile.limitLength clause text

/-- The text of a condition. -/
def compile (condition : Condition) : Compile String := compileClause .condition condition

end Condition

end ItemExpr
