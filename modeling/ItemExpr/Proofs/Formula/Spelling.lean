import ItemExpr.Proofs.Formula.Basic
import ItemExpr.Proofs.Path.Spelling

/-! # Formulas in placeholders

An expression holds a formula whose names and literals are placeholders (`Formula.spell`), and to
read it is to look all of them up again (`Formula.resolve`). What is found is the formula that was
spelled, up to equality of its literals (`Formula.resolve_spell`). -/

namespace ItemExpr

variable {ν : Type}

/-! ### Terms -/

/-- The **mentions of a term**, in order. -/
def Term.mentions : Term ν → List (Mention ν)
  | .path target => target.mentions
  | .size target => target.mentions
  | .value literal => [.value literal]

/-- A term, **spelled** in placeholders. -/
def Term.spell (spelling : Registration → String) : Term AttributeValue → Term String
  | .path target => .path (target.spell spelling)
  | .size target => .size (target.spell spelling)
  | .value literal => .value (spelling (.value literal))

/-- The term that a term in placeholders stands for. -/
def Term.resolve (names : String → Option String) (values : String → Option AttributeValue) :
    Term String → Option (Term AttributeValue)
  | .path target => (target.resolve names).map .path
  | .size target => (target.resolve names).map .size
  | .value placeholder => (values placeholder).map .value

/-- A term is spelled alike by spellings that agree on its mentions. -/
theorem Term.spell_congr {f g : Registration → String} {term : Term AttributeValue}
    (agree : ∀ registration ∈ term.mentions, f registration = g registration) :
    term.spell f = term.spell g := by
  cases term with
  | path path => rw [spell, spell, Path.spell_congr agree]
  | size path => rw [spell, spell, Path.spell_congr agree]
  | value value => rw [spell, spell, agree _ (List.mem_singleton_self _)]

/-- A list of terms is spelled alike by spellings that agree on its mentions. -/
theorem Term.map_spell_congr {f g : Registration → String} {terms : List (Term AttributeValue)}
    (agree : ∀ registration ∈ terms.flatMap Term.mentions,
      f registration = g registration) :
    terms.map (Term.spell f) = terms.map (Term.spell g) := by
  refine List.map_congr_left fun term mem => Term.spell_congr fun registration mem' => ?_
  exact agree registration (List.mem_flatMap.2 ⟨term, mem, mem'⟩)

/-- The mentions of a spelled term are its mentions, spelled. -/
@[simp] theorem Term.mentions_spell (f : Registration → String) (term : Term AttributeValue) :
    (term.spell f).mentions = term.mentions.map (Mention.spell f) := by
  cases term with
  | path target => exact target.mentions_spell f
  | size target => exact target.mentions_spell f
  | value literal => rfl

/-- The mentions of spelled terms are their mentions, spelled. -/
theorem Term.flatMap_mentions_map_spell (f : Registration → String)
    (terms : List (Term AttributeValue)) :
    (terms.map (Term.spell f)).flatMap Term.mentions =
      (terms.flatMap Term.mentions).map (Mention.spell f) :=
  Mention.flatMap_map (Term.mentions_spell f) terms

section Resolve

variable {f : Registration → String} {names : String → Option String}
  {values : String → Option AttributeValue}

/-- A term is found again in its spelling. -/
theorem Term.resolve_spell {term : Term AttributeValue}
    (inverts : Inverts f names values term.mentions) :
    ∃ found, (term.spell f).resolve names values = some found ∧ (found == term) = true := by
  cases term with
  | path path =>
    refine ⟨.path path, ?_, decide_eq_true rfl⟩
    rw [spell, resolve, Path.resolve_spell inverts, Option.map_some]
  | size path =>
    refine ⟨.size path, ?_, decide_eq_true rfl⟩
    rw [spell, resolve, Path.resolve_spell inverts, Option.map_some]
  | value value =>
    -- The table may know the placeholder by another, equal value.
    obtain ⟨known, found, equal⟩ := inverts _ (List.mem_singleton_self _)
    refine ⟨.value known, ?_, equal⟩
    rw [spell, resolve, found, Option.map_some]

/-- A list of terms is found again in its spelling. -/
theorem Term.mapM_resolve_map_spell {terms : List (Term AttributeValue)}
    (inverts : Inverts f names values (terms.flatMap Term.mentions)) :
    ∃ found, (terms.map (Term.spell f)).mapM (Term.resolve names values) = some found ∧
      (found == terms) = true := by
  obtain ⟨found, resolved, equal⟩ :=
    Inverts.mapM_resolve (fun _ inverts => Term.resolve_spell inverts) inverts
  exact ⟨found, resolved, by rwa [List.map_id'] at equal⟩

end Resolve

/-! ### Tests -/

/-- The **mentions of a test**, in order. -/
def Test.mentions : Test ν → List (Mention ν)
  | .compare left _ right => left.mentions ++ right.mentions
  | .between term lower upper => term.mentions ++ (lower.mentions ++ upper.mentions)
  | .among term first others => term.mentions ++ (first :: others).flatMap Term.mentions
  | .exists path _ => path.mentions
  | .hasType path code => path.mentions ++ code.mentions
  | .beginsWith path start => path.mentions ++ start.mentions
  | .contains path element => path.mentions ++ element.mentions

/-- A test, **spelled** in placeholders. -/
def Test.spell (f : Registration → String) : Test AttributeValue → Test String
  | .compare left comparison right => .compare (left.spell f) comparison (right.spell f)
  | .between term lower upper => .between (term.spell f) (lower.spell f) (upper.spell f)
  | .among term first others =>
    .among (term.spell f) (first.spell f) (others.map (Term.spell f))
  | .exists path negated => .exists (path.spell f) negated
  | .hasType path code => .hasType (path.spell f) (code.spell f)
  | .beginsWith path start => .beginsWith (path.spell f) (start.spell f)
  | .contains path element => .contains (path.spell f) (element.spell f)

/-- The test that a test in placeholders stands for. -/
def Test.resolve (names : String → Option String) (values : String → Option AttributeValue) :
    Test String → Option (Test AttributeValue)
  | .compare left comparison right => do
    let left ← left.resolve names values
    let right ← right.resolve names values
    pure (.compare left comparison right)
  | .between term lower upper => do
    let term ← term.resolve names values
    let lower ← lower.resolve names values
    let upper ← upper.resolve names values
    pure (.between term lower upper)
  | .among term first others => do
    let term ← term.resolve names values
    let first ← first.resolve names values
    let others ← others.mapM (Term.resolve names values)
    pure (.among term first others)
  | .exists path negated => do
    let path ← path.resolve names
    pure (.exists path negated)
  | .hasType path code => do
    let path ← path.resolve names
    let code ← code.resolve names values
    pure (.hasType path code)
  | .beginsWith path start => do
    let path ← path.resolve names
    let start ← start.resolve names values
    pure (.beginsWith path start)
  | .contains path element => do
    let path ← path.resolve names
    let element ← element.resolve names values
    pure (.contains path element)

/-- A test is spelled alike by spellings that agree on its mentions. -/
theorem Test.spell_congr {f g : Registration → String} {test : Test AttributeValue}
    (agree : ∀ registration ∈ test.mentions, f registration = g registration) :
    test.spell f = test.spell g := by
  cases test with
  | compare left comparison right =>
    rw [mentions, List.forall_mem_append] at agree
    rw [spell, spell, Term.spell_congr agree.1, Term.spell_congr agree.2]
  | between term lower upper =>
    rw [mentions, List.forall_mem_append, List.forall_mem_append] at agree
    rw [spell, spell, Term.spell_congr agree.1, Term.spell_congr agree.2.1,
      Term.spell_congr agree.2.2]
  | among term first others =>
    rw [mentions, List.flatMap_cons, List.forall_mem_append, List.forall_mem_append] at agree
    rw [spell, spell, Term.spell_congr agree.1, Term.spell_congr agree.2.1,
      Term.map_spell_congr agree.2.2]
  | «exists» path negated =>
    rw [spell, spell, Path.spell_congr agree]
  | hasType path code =>
    rw [mentions, List.forall_mem_append] at agree
    rw [spell, spell, Path.spell_congr agree.1, Term.spell_congr agree.2]
  | beginsWith path start =>
    rw [mentions, List.forall_mem_append] at agree
    rw [spell, spell, Path.spell_congr agree.1, Term.spell_congr agree.2]
  | contains path element =>
    rw [mentions, List.forall_mem_append] at agree
    rw [spell, spell, Path.spell_congr agree.1, Term.spell_congr agree.2]

/-- The mentions of a spelled test are its mentions, spelled. -/
@[simp] theorem Test.mentions_spell (f : Registration → String) (test : Test AttributeValue) :
    (test.spell f).mentions = test.mentions.map (Mention.spell f) := by
  cases test with
  | compare left comparison right =>
    rw [spell, mentions, mentions, List.map_append, Term.mentions_spell, Term.mentions_spell]
  | between term lower upper =>
    rw [spell, mentions, mentions, List.map_append, List.map_append, Term.mentions_spell,
      Term.mentions_spell, Term.mentions_spell]
  | among term first others =>
    rw [spell, mentions, mentions, List.map_append, Term.mentions_spell, ← List.map_cons,
      Term.flatMap_mentions_map_spell]
  | «exists» path negated => exact path.mentions_spell f
  | hasType path code =>
    rw [spell, mentions, mentions, List.map_append, Path.mentions_spell, Term.mentions_spell]
  | beginsWith path start =>
    rw [spell, mentions, mentions, List.map_append, Path.mentions_spell, Term.mentions_spell]
  | contains path element =>
    rw [spell, mentions, mentions, List.map_append, Path.mentions_spell, Term.mentions_spell]

/-- A test is found again in its spelling. -/
theorem Test.resolve_spell {f : Registration → String} {names : String → Option String}
    {values : String → Option AttributeValue} {test : Test AttributeValue}
    (inverts : Inverts f names values test.mentions) :
    ∃ found, (test.spell f).resolve names values = some found ∧ (found == test) = true := by
  cases test with
  | compare left comparison right =>
    rw [mentions, inverts_append] at inverts
    obtain ⟨left', found, equal⟩ := Term.resolve_spell inverts.1
    obtain ⟨right', found', equal'⟩ := Term.resolve_spell inverts.2
    refine ⟨.compare left' comparison right', ?_, ?_⟩
    · rw [spell, resolve, found, found']
      rfl
    · show (left' == left && decide (comparison = comparison) && right' == right) = true
      rw [equal, equal', decide_eq_true rfl, Bool.and_self, Bool.and_self]
  | between term lower upper =>
    rw [mentions, inverts_append, inverts_append] at inverts
    obtain ⟨term', found, equal⟩ := Term.resolve_spell inverts.1
    obtain ⟨lower', found', equal'⟩ := Term.resolve_spell inverts.2.1
    obtain ⟨upper', found'', equal''⟩ := Term.resolve_spell inverts.2.2
    refine ⟨.between term' lower' upper', ?_, ?_⟩
    · rw [spell, resolve, found, found', found'']
      rfl
    · show (term' == term && lower' == lower && upper' == upper) = true
      rw [equal, equal', equal'', Bool.and_self, Bool.and_self]
  | among term first others =>
    rw [mentions, List.flatMap_cons, inverts_append, inverts_append] at inverts
    obtain ⟨term', found, equal⟩ := Term.resolve_spell inverts.1
    obtain ⟨first', found', equal'⟩ := Term.resolve_spell inverts.2.1
    obtain ⟨others', found'', equal''⟩ := Term.mapM_resolve_map_spell inverts.2.2
    refine ⟨.among term' first' others', ?_, ?_⟩
    · rw [spell, resolve, found, found', found'']
      rfl
    · show (term' == term && first' == first && others' == others) = true
      rw [equal, equal', equal'', Bool.and_self, Bool.and_self]
  | «exists» path negated =>
    refine ⟨.exists path negated, ?_, ?_⟩
    · rw [spell, resolve, Path.resolve_spell inverts]
      rfl
    · show (decide (path = path) && negated == negated) = true
      rw [decide_eq_true rfl, beq_self_eq_true, Bool.and_self]
  | hasType path code =>
    rw [mentions, inverts_append] at inverts
    obtain ⟨code', found, equal⟩ := Term.resolve_spell inverts.2
    refine ⟨.hasType path code', ?_, ?_⟩
    · rw [spell, resolve, Path.resolve_spell inverts.1, found]
      rfl
    · show (decide (path = path) && code' == code) = true
      rw [equal, decide_eq_true rfl, Bool.and_self]
  | beginsWith path start =>
    rw [mentions, inverts_append] at inverts
    obtain ⟨start', found, equal⟩ := Term.resolve_spell inverts.2
    refine ⟨.beginsWith path start', ?_, ?_⟩
    · rw [spell, resolve, Path.resolve_spell inverts.1, found]
      rfl
    · show (decide (path = path) && start' == start) = true
      rw [equal, decide_eq_true rfl, Bool.and_self]
  | contains path element =>
    rw [mentions, inverts_append] at inverts
    obtain ⟨element', found, equal⟩ := Term.resolve_spell inverts.2
    refine ⟨.contains path element', ?_, ?_⟩
    · rw [spell, resolve, Path.resolve_spell inverts.1, found]
      rfl
    · show (decide (path = path) && element' == element) = true
      rw [equal, decide_eq_true rfl, Bool.and_self]

/-! ### Formulas -/

namespace Formula

mutual

/-- The **mentions of a formula**, in order. -/
def mentions : Formula ν → List (Mention ν)
  | .test leaf => leaf.mentions
  | .group _ members => memberMentions members
  | .not formula => mentions formula

/-- The mentions of some formulas, in order. -/
def memberMentions : List (Formula ν) → List (Mention ν)
  | [] => []
  | member :: members => mentions member ++ memberMentions members

end

mutual

/-- A formula, **spelled** in placeholders. -/
def spell (f : Registration → String) : Formula AttributeValue → Formula String
  | .test leaf => .test (leaf.spell f)
  | .group connective members => .group connective (spellMembers f members)
  | .not formula => .not (spell f formula)

/-- Some formulas, spelled in placeholders. -/
def spellMembers (f : Registration → String) : List (Formula AttributeValue) → List (Formula String)
  | [] => []
  | member :: members => spell f member :: spellMembers f members

end

mutual

/-- The formula that a formula in placeholders **stands for**. -/
def resolve (names : String → Option String) (values : String → Option AttributeValue) :
    Formula String → Option (Formula AttributeValue)
  | .test leaf => (leaf.resolve names values).map .test
  | .group connective members => (resolveMembers names values members).map (.group connective)
  | .not formula => (resolve names values formula).map .not

/-- The formulas that some formulas in placeholders stand for. -/
def resolveMembers (names : String → Option String) (values : String → Option AttributeValue) :
    List (Formula String) → Option (List (Formula AttributeValue))
  | [] => some []
  | member :: members => do
    let member ← resolve names values member
    let members ← resolveMembers names values members
    pure (member :: members)

end

theorem memberMentions_eq_flatMap (members : List (Formula ν)) :
    memberMentions members = members.flatMap mentions := by
  induction members with
  | nil => rfl
  | cons member members ih => rw [memberMentions, ih, List.flatMap_cons]

theorem spellMembers_eq_map (f : Registration → String) (members : List (Formula AttributeValue)) :
    spellMembers f members = members.map (spell f) := by
  induction members with
  | nil => rfl
  | cons member members ih => rw [spellMembers, ih, List.map_cons]

/-- A spelled formula is flat if the formula is. -/
theorem Flat.spell {formula : Formula AttributeValue} (flat : formula.Flat)
    (f : Registration → String) : (formula.spell f).Flat := by
  induction formula with
  | test leaf => exact trivial
  | not formula ih => exact ih flat
  | group connective members ih =>
    rw [Flat, flatMembers_iff] at flat
    rw [Formula.spell, Flat, spellMembers_eq_map, flatMembers_iff, List.length_map]
    refine ⟨flat.1, ?_⟩
    rw [List.forall_mem_map]
    intro member mem
    refine ⟨ih member mem (flat.2 member mem).1, ?_⟩
    -- Spelling leaves the connective of a member as it is.
    have other := (flat.2 member mem).2
    cases member <;> exact other

/-- A formula is spelled alike by spellings that agree on its mentions. -/
theorem spell_congr {f g : Registration → String} {formula : Formula AttributeValue}
    (agree : ∀ registration ∈ formula.mentions, f registration = g registration) :
    formula.spell f = formula.spell g := by
  induction formula with
  | test leaf => rw [spell, spell, Test.spell_congr agree]
  | group connective members ih =>
    rw [mentions, memberMentions_eq_flatMap] at agree
    rw [spell, spell, spellMembers_eq_map, spellMembers_eq_map]
    congr 1
    refine List.map_congr_left fun member mem => ih member mem fun registration mem' => ?_
    exact agree registration (List.mem_flatMap.2 ⟨member, mem, mem'⟩)
  | not formula ih => rw [spell, spell, ih agree]

mutual

/-- The mentions of a spelled formula are its mentions, spelled. -/
@[simp] theorem mentions_spell (f : Registration → String) :
    ∀ formula : Formula AttributeValue,
      (formula.spell f).mentions = formula.mentions.map (Mention.spell f)
  | .test leaf => leaf.mentions_spell f
  | .group _ members => memberMentions_spellMembers f members
  | .not formula => mentions_spell f formula

/-- The mentions of some spelled formulas are their mentions, spelled. -/
theorem memberMentions_spellMembers (f : Registration → String) :
    ∀ members : List (Formula AttributeValue),
      memberMentions (spellMembers f members) = (memberMentions members).map (Mention.spell f)
  | [] => rfl
  | member :: members => by
    rw [spellMembers, memberMentions, memberMentions, List.map_append, mentions_spell f member,
      memberMentions_spellMembers f members]

end

mutual

/-- A formula is found again in its spelling, up to equality of literals. -/
theorem resolve_spell {f : Registration → String} {names : String → Option String}
    {values : String → Option AttributeValue} :
    ∀ formula : Formula AttributeValue, Inverts f names values formula.mentions →
      ∃ found, (formula.spell f).resolve names values = some found ∧ (found == formula) = true
  | .test leaf, inverts => by
    obtain ⟨leaf', found, equal⟩ := Test.resolve_spell inverts
    exact ⟨.test leaf', by rw [spell, resolve, found, Option.map_some], equal⟩
  | .group connective members, inverts => by
    obtain ⟨members', found, equal⟩ := resolveMembers_spellMembers members inverts
    refine ⟨.group connective members', by rw [spell, resolve, found, Option.map_some], ?_⟩
    show (decide (connective = connective) && sameMembers members' members) = true
    rw [equal, decide_eq_true rfl, Bool.and_self]
  | .not formula, inverts => by
    obtain ⟨formula', found, equal⟩ := resolve_spell formula inverts
    exact ⟨.not formula', by rw [spell, resolve, found, Option.map_some], equal⟩

/-- Some formulas are found again in their spelling, up to equality of literals. -/
theorem resolveMembers_spellMembers {f : Registration → String}
    {names : String → Option String} {values : String → Option AttributeValue} :
    ∀ members : List (Formula AttributeValue),
      Inverts f names values (memberMentions members) →
      ∃ found, resolveMembers names values (spellMembers f members) = some found ∧
        sameMembers found members = true
  | [], _ => ⟨[], rfl, rfl⟩
  | member :: members, inverts => by
    rw [memberMentions, inverts_append] at inverts
    obtain ⟨member', found, equal⟩ := resolve_spell member inverts.1
    obtain ⟨members', found', equal'⟩ := resolveMembers_spellMembers members inverts.2
    refine ⟨member' :: members', ?_, ?_⟩
    · rw [spellMembers, resolveMembers, found, found']
      rfl
    · show (member' == member && sameMembers members' members) = true
      rw [equal, equal', Bool.and_self]

end

end Formula

end ItemExpr
