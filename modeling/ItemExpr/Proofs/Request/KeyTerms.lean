import ItemExpr.Proofs.Condition.Conjuncts

/-! # Key conditions as formulas

A formula is a key condition if it is an AND of terms that compare attributes with literals, and if
these terms are fit for a key: they are on key attributes, none of them on that of another, and the
partition key has an equality (`Formula.IsKeyCondition`). Which path stands for the name of a key
attribute is a parameter: what the name is parsed as, or the attribute of that name. The two agree
for names without points and opening brackets (`areTerms_of_plain`), and for no others
(`plain_of_areTerms`). -/

namespace ItemExpr

/-! ### Terms -/

section Terms

variable {ν : Type}

/-- The attribute that a term is, if it is one. -/
def Term.attribute? : Term ν → Option Path
  | .path target => some target
  | _ => none

/-- Whether a term is a literal. -/
def Term.isLiteral : Term ν → Bool
  | .value _ => true
  | _ => false

/-- The path that a test is on, and whether the test is an equality, if the test compares the path
with literals in one of the ways in which a key can be looked up. -/
def Test.keyTerm? : Test ν → Option (Path × Bool)
  | .compare left comparison right =>
    match left.attribute?, right.isLiteral with
    | some target, true => if comparison = .ne then none else some (target, comparison = .eq)
    | _, _ => none
  | .between term lower upper =>
    match term.attribute?, lower.isLiteral, upper.isLiteral with
    | some target, true, true => some (target, false)
    | _, _, _ => none
  | .beginsWith target start => if start.isLiteral then some (target, false) else none
  | _ => none

namespace Formula

/-- The path and the kind of a term of a key condition, if a formula is one. -/
def keyTerm? : Formula ν → Option (Path × Bool)
  | .test leaf => leaf.keyTerm?
  | _ => none

/-- The terms of a key condition that the members of a formula are, as far as they are terms. -/
def keyTerms (formula : Formula ν) : List (Option (Path × Bool)) := formula.conjuncts.map keyTerm?

end Formula

end Terms

/-! ### Key conditions -/

/-- Whether terms are **fit for a key**. -/
structure FitForKey (key : List KeyAttribute) (terms : List KeyTerm) : Prop where
  /-- They are on key attributes. -/
  named : ∀ term ∈ terms, term.path ∈ key.map KeyAttribute.name
  /-- No two of them are on one attribute. -/
  once : (terms.map KeyTerm.path).Nodup
  /-- The partition key, if there is one, is constrained by an equality. -/
  partition : ∀ name, keyOfRole? .partition key = some name → ⟨name, true⟩ ∈ terms

/-- Whether what was found are terms, one for one and of the same kinds, on what the paths of some
terms denote. -/
abbrev AreTerms (denotes : String → Path → Prop) (found : List (Option (Path × Bool)))
    (terms : List KeyTerm) : Prop :=
  List.Forall₂ (fun entry term => ∃ target, entry = some (target, term.equality) ∧
    denotes term.path target) found terms

/-- Whether a formula is a **key condition**: an AND of terms on what the names of key attributes
denote, fit for the key. -/
def Formula.IsKeyCondition {ν : Type} (denotes : String → Path → Prop) (key : List KeyAttribute)
    (formula : Formula ν) : Prop :=
  ∃ terms, FitForKey key terms ∧ AreTerms denotes formula.keyTerms terms

/-- Whether a path is what a text is **parsed** as. -/
def Path.IsParsed (text : String) (path : Path) : Prop := Path.parse text = .ok path

/-- Whether a path is nothing but the **top-level attribute** of a name. -/
def Path.IsAttribute (name : String) (path : Path) : Prop := path = ⟨name, []⟩

/-! ### Equal formulas -/

section Equality

variable {ν : Type} [BEq ν]

/-- Equal terms are the same attribute, or none. -/
theorem Term.attribute?_eq_of_same {a b : Term ν} (same : (a == b) = true) :
    a.attribute? = b.attribute? := by
  cases a with
  | path target =>
    cases b with
    | path => exact congrArg some (of_decide_eq_true same)
    | size | value => cases same
  | size target | value target =>
    cases b with
    | path => cases same
    | size | value => rfl

/-- Of two equal terms both are literals, or neither. -/
theorem Term.isLiteral_eq_of_same {a b : Term ν} (same : (a == b) = true) :
    a.isLiteral = b.isLiteral := by
  cases a with
  | value literal =>
    cases b with
    | value => rfl
    | path | size => cases same
  | path target | size target =>
    cases b with
    | value => cases same
    | path | size => rfl

/-- Equal tests are the same term of a key condition, or none. -/
theorem Test.keyTerm?_eq_of_same {a b : Test ν} (same : (a == b) = true) :
    a.keyTerm? = b.keyTerm? := by
  cases a with
  | compare left comparison right =>
    cases b with
    | compare left' comparison' right' =>
      obtain ⟨first, last⟩ := Bool.and_eq_true_iff.1 same
      obtain ⟨first, middle⟩ := Bool.and_eq_true_iff.1 first
      rw [keyTerm?, keyTerm?, Term.attribute?_eq_of_same first, of_decide_eq_true middle,
        Term.isLiteral_eq_of_same last]
    | _ => cases same
  | between term lower upper =>
    cases b with
    | between term' lower' upper' =>
      obtain ⟨first, last⟩ := Bool.and_eq_true_iff.1 same
      obtain ⟨first, middle⟩ := Bool.and_eq_true_iff.1 first
      rw [keyTerm?, keyTerm?, Term.attribute?_eq_of_same first, Term.isLiteral_eq_of_same middle,
        Term.isLiteral_eq_of_same last]
    | _ => cases same
  | beginsWith target start =>
    cases b with
    | beginsWith target' start' =>
      obtain ⟨first, last⟩ := Bool.and_eq_true_iff.1 same
      rw [keyTerm?, keyTerm?, of_decide_eq_true first, Term.isLiteral_eq_of_same last]
    | _ => cases same
  | _ =>
    cases b with
    | compare | between | beginsWith => cases same
    | _ => rfl

namespace Formula

/-- Equal formulas are the same term of a key condition, or none. -/
theorem keyTerm?_eq_of_same {a b : Formula ν} (same : (a == b) = true) :
    a.keyTerm? = b.keyTerm? := by
  cases a with
  | test leaf =>
    cases b with
    | test leaf' => exact Test.keyTerm?_eq_of_same same
    | group | not => cases same
  | group | not =>
    cases b with
    | test => cases same
    | group | not => rfl

/-- Equal lists of formulas are the same terms. -/
theorem map_keyTerm?_eq_of_same {members others : List (Formula ν)}
    (same : sameMembers members others = true) :
    members.map keyTerm? = others.map keyTerm? := by
  induction members generalizing others with
  | nil =>
    cases others with
    | nil => rfl
    | cons => cases same
  | cons member members ih =>
    cases others with
    | nil => cases same
    | cons other others =>
      obtain ⟨first, rest⟩ := Bool.and_eq_true_iff.1 same
      rw [List.map_cons, List.map_cons, keyTerm?_eq_of_same first, ih rest]

/-- Equal formulas have equal members. -/
theorem sameMembers_conjuncts_of_same {a b : Formula ν} (same : (a == b) = true) :
    sameMembers a.conjuncts b.conjuncts = true := by
  have alone : sameMembers [a] [b] = true := by
    rw [sameMembers, sameMembers, Bool.and_true]
    exact same
  cases a with
  | test | not =>
    cases b with
    | test | not => exact alone
    | group => cases same
  | group connective members =>
    cases b with
    | test | not => cases same
    | group connective' others =>
      obtain ⟨equal, rest⟩ := Bool.and_eq_true_iff.1 same
      obtain rfl := of_decide_eq_true equal
      cases connective with
      | and => exact rest
      | or => exact alone

/-- Equal formulas have the same terms. -/
theorem keyTerms_eq_of_same {a b : Formula ν} (same : (a == b) = true) :
    a.keyTerms = b.keyTerms :=
  map_keyTerm?_eq_of_same (sameMembers_conjuncts_of_same same)

end Formula

end Equality

/-! ### Names of key attributes -/

section Names

variable {found : List (Option (Path × Bool))} {terms : List KeyTerm}

/-- Terms that are on top-level attributes have been parsed from texts without points and opening
brackets. -/
theorem plain_of_areTerms {names : List KeyTerm} (parsed : AreTerms Path.IsParsed found terms)
    (named : AreTerms Path.IsAttribute found names) :
    ∀ term ∈ terms, '.' ∉ term.path.toList ∧ '[' ∉ term.path.toList := by
  induction parsed generalizing names with
  | nil => nofun
  | cons first _ ih =>
    cases named with
    | cons first' rest' =>
      obtain ⟨target, entry, parses⟩ := first
      obtain ⟨target', entry', named⟩ := first'
      -- Both are the one path that was found.
      obtain ⟨same, _⟩ := Prod.mk.inj (Option.some.inj (entry.symm.trans entry'))
      have alone : target.steps = [] := by rw [same, named]
      exact List.forall_mem_cons.2 ⟨(Path.steps_of_parse_eq_nil_iff parses).1 alone, ih rest'⟩

/-- Texts without points and opening brackets name the top-level attributes that they are parsed
as. -/
theorem areTerms_of_plain (parsed : AreTerms Path.IsParsed found terms)
    (plain : ∀ term ∈ terms, '.' ∉ term.path.toList ∧ '[' ∉ term.path.toList) :
    AreTerms Path.IsAttribute found terms := by
  induction parsed with
  | nil => exact .nil
  | cons first _ ih =>
    rw [List.forall_mem_cons] at plain
    obtain ⟨target, entry, parses⟩ := first
    have alone := (Path.steps_of_parse_eq_nil_iff parses).2 plain.1
    exact .cons ⟨target, entry, Path.eq_of_parse_of_steps_eq_nil parses alone⟩ (ih plain.2)

end Names

end ItemExpr
