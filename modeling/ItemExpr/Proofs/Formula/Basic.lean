import ItemExpr.AttributeValue.Summary
import ItemExpr.Path
import ItemExpr.Words

/-! # Formulas

A `Formula` is a condition as a grammar sees it: its paths are read and its literals are of a type
that varies, placeholders in what is parsed and attribute values in what is meant. Formulas are
compared up to equality of their literals, they have a truth value under every assignment of truth
values to their tests, and those without superfluous groups are `Flat`. -/

namespace ItemExpr

/-- What a test is **on**. -/
inductive Term (ν : Type) where
  /-- An attribute. -/
  | path (path : Path)
  /-- The size of an attribute. -/
  | size (path : Path)
  /-- A literal. -/
  | value (value : ν)
deriving DecidableEq, Repr

/-- A **test** of an item. -/
inductive Test (ν : Type) where
  /-- Two terms compare. -/
  | compare (left : Term ν) (comparison : Comparison) (right : Term ν)
  /-- A term lies between two others, or is one of them. -/
  | between (term lower upper : Term ν)
  /-- A term is among some candidates, of which there is a first one. -/
  | among (term first : Term ν) (others : List (Term ν))
  /-- An attribute exists or, if `negated`, does not. -/
  | exists (path : Path) (negated : Bool)
  /-- An attribute is of the type with a code. -/
  | hasType (path : Path) (code : Term ν)
  /-- An attribute begins with a term. -/
  | beginsWith (path : Path) (start : Term ν)
  /-- An attribute contains a term. -/
  | contains (path : Path) (element : Term ν)
deriving DecidableEq, Repr

/-- A **formula** over tests. -/
inductive Formula (ν : Type) where
  /-- A test holds. -/
  | test (test : Test ν)
  /-- All or some formulas hold. -/
  | group (connective : Connective) (members : List (Formula ν))
  /-- A formula does not hold. -/
  | not (formula : Formula ν)
deriving Repr

variable {ν : Type}

namespace Formula

/-- Induction on formulas, with the members of a group at once. -/
@[elab_as_elim, induction_eliminator]
theorem induction {motive : Formula ν → Prop} (test : ∀ test, motive (.test test))
    (group : ∀ connective members, (∀ member ∈ members, motive member) →
      motive (.group connective members))
    (not : ∀ formula, motive formula → motive (.not formula)) : ∀ formula, motive formula
  | .test leaf => test leaf
  | .group connective members =>
    group connective members fun member _ => induction test group not member
  | .not formula => not formula (induction test group not formula)

end Formula

/-! ### Equality up to equality of literals -/

section Equality

variable [BEq ν]

/-- Whether two terms are equal. -/
def Term.same : Term ν → Term ν → Bool
  | .path a, .path b => a = b
  | .size a, .size b => a = b
  | .value a, .value b => a == b
  | _, _ => false

instance : BEq (Term ν) := ⟨Term.same⟩

/-- Whether two tests are equal. -/
def Test.same : Test ν → Test ν → Bool
  | .compare a c b, .compare a' c' b' => a == a' && decide (c = c') && b == b'
  | .between a l u, .between a' l' u' => a == a' && l == l' && u == u'
  | .among a f os, .among a' f' os' => a == a' && f == f' && os == os'
  | .exists p n, .exists p' n' => decide (p = p') && n == n'
  | .hasType p c, .hasType p' c' => decide (p = p') && c == c'
  | .beginsWith p s, .beginsWith p' s' => decide (p = p') && s == s'
  | .contains p e, .contains p' e' => decide (p = p') && e == e'
  | _, _ => false

instance : BEq (Test ν) := ⟨Test.same⟩

mutual

/-- Whether two formulas are the same tree, with equal literals. -/
def Formula.same : Formula ν → Formula ν → Bool
  | .test a, .test b => a == b
  | .group c ms, .group c' ms' => decide (c = c') && Formula.sameMembers ms ms'
  | .not a, .not b => Formula.same a b
  | _, _ => false

/-- Whether two lists of formulas are the same. -/
def Formula.sameMembers : List (Formula ν) → List (Formula ν) → Bool
  | [], [] => true
  | a :: as, b :: bs => Formula.same a b && Formula.sameMembers as bs
  | _, _ => false

end

instance : BEq (Formula ν) := ⟨Formula.same⟩

end Equality

namespace Formula

/-! ### Truth -/

mutual

/-- The **truth value** of a formula under an assignment of truth values to its tests. -/
def eval (holds : Test ν → Bool) : Formula ν → Bool
  | .test leaf => holds leaf
  | .group .and members => (evalMembers holds members).all id
  | .group .or members => (evalMembers holds members).any id
  | .not formula => !eval holds formula

/-- The truth values of some formulas, in order. -/
def evalMembers (holds : Test ν → Bool) : List (Formula ν) → List Bool
  | [] => []
  | member :: members => eval holds member :: evalMembers holds members

end

/-! ### Groups -/

/-- Whether a formula is a group. -/
def isGroup : Formula ν → Bool
  | .group _ _ => true
  | _ => false

/-- Whether a formula is a group of a connective. -/
def isGroupOf (connective : Connective) : Formula ν → Bool
  | .group connective' _ => connective' = connective
  | _ => false

mutual

/-- Whether every group in a formula has two members or more, none of which is a group of the same
connective. -/
def Flat : Formula ν → Prop
  | .test _ => True
  | .group connective members => 2 ≤ members.length ∧ FlatMembers connective members
  | .not formula => Flat formula

/-- Whether formulas are flat and none of them is a group of a connective. -/
def FlatMembers (connective : Connective) : List (Formula ν) → Prop
  | [] => True
  | member :: members =>
    (Flat member ∧ member.isGroupOf connective = false) ∧ FlatMembers connective members

end

/-- The formula that some members joined by a connective make: a single one makes itself. -/
def join (connective : Connective) : List (Formula ν) → Formula ν
  | [only] => only
  | members => .group connective members

@[simp] theorem join_singleton (connective : Connective) (only : Formula ν) :
    join connective [only] = only := rfl

/-- Two members or more make a group. -/
theorem join_of_length {connective : Connective} {members : List (Formula ν)}
    (several : 2 ≤ members.length) : join connective members = .group connective members := by
  match members, several with
  | _ :: _ :: _, _ => rfl

theorem flatMembers_iff {connective : Connective} {members : List (Formula ν)} :
    FlatMembers connective members ↔
      ∀ member ∈ members, Flat member ∧ member.isGroupOf connective = false := by
  induction members with
  | nil => simp [FlatMembers]
  | cons member members ih => rw [FlatMembers, ih, List.forall_mem_cons]

theorem evalMembers_eq_map (holds : Test ν → Bool) (members : List (Formula ν)) :
    evalMembers holds members = members.map (eval holds) := by
  induction members with
  | nil => rfl
  | cons member members ih => rw [evalMembers, ih, List.map_cons]

/-- Lists of equal formulas have the same truth values, if each of the formulas has. -/
theorem evalMembers_eq_of_same [BEq ν] {holds : Test ν → Bool} {members others : List (Formula ν)}
    (each : ∀ member ∈ members, ∀ other, (member == other) = true →
      eval holds member = eval holds other)
    (same : sameMembers members others = true) :
    evalMembers holds members = evalMembers holds others := by
  induction members generalizing others with
  | nil =>
    cases others with
    | nil => rfl
    | cons => cases same
  | cons member members ih =>
    cases others with
    | nil => cases same
    | cons other others =>
      rw [List.forall_mem_cons] at each
      obtain ⟨first, rest⟩ := Bool.and_eq_true_iff.1 same
      rw [evalMembers, evalMembers, each.1 other first, ih each.2 rest]

/-- Equal formulas have the same truth value, if equal tests do. -/
theorem eval_eq_of_same [BEq ν] {holds : Test ν → Bool}
    (respects : ∀ a b : Test ν, (a == b) = true → holds a = holds b) {formula other : Formula ν}
    (same : (formula == other) = true) : formula.eval holds = other.eval holds := by
  induction formula generalizing other with
  | test leaf =>
    cases other with
    | test leaf' => exact respects leaf leaf' same
    | group | not => cases same
  | not formula ih =>
    cases other with
    | not other => rw [eval, eval, ih same]
    | test | group => cases same
  | group connective members ih =>
    cases other with
    | test | not => cases same
    | group connective' others =>
      obtain ⟨equal, rest⟩ := Bool.and_eq_true_iff.1 same
      obtain rfl := of_decide_eq_true equal
      have values := evalMembers_eq_of_same (fun member mem _ => ih member mem) rest
      cases connective <;> rw [eval, eval, values]

end Formula

end ItemExpr
