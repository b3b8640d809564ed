import ItemExpr.Proofs.Request.KeyTerms
import ItemExpr.Proofs.Request.Spelled

/-! # Key conditions of queries

The check of a key condition goes through the members of its ANDs as they were written and compares
the texts of their paths with the names of key attributes. What is sent is the normal form of the
condition, its paths parsed and spelled in placeholders. Both have the same terms
(`isKeyCondition_of_check`), so that the key condition of a query that is not refused is an AND of
terms on what the names of key attributes are parsed as
(`Clauses.applyToQuery_sends_keyCondition`).

A name with a point or an opening bracket in it is parsed as a longer path, and what is sent is then
no condition on the key attribute of that name (`Clauses.applyToQuery_sends_nested_path`). -/

namespace ItemExpr

open Compile

/-! ### The check -/

/-- Terms that pass the check are on attributes of the key, none of them on one that was seen or on
that of another term, and those on the partition key are equalities. -/
theorem checkTerms_eq_ok {key : List KeyAttribute} {seen constrained : List String}
    {conditions : List Condition} (checked : checkTerms key seen conditions = .ok constrained) :
    ∃ terms : List KeyTerm,
      List.Forall₂ (fun condition term => Condition.keyTerm condition = .ok term)
        conditions terms ∧
      (∀ term ∈ terms, term.path ∈ key.map KeyAttribute.name ∧
        (keyOfRole? .partition key = some term.path → term.equality = true)) ∧
      constrained = (terms.map KeyTerm.path).reverse ++ seen ∧
      (seen.Nodup → constrained.Nodup) := by
  induction conditions generalizing seen with
  | nil =>
    cases checked
    exact ⟨[], .nil, nofun, rfl, id⟩
  | cons condition conditions ih =>
    obtain ⟨term, first, checked⟩ := bind_eq_ok_iff.1 checked
    -- Each of the three reasons to refuse a term has been ruled out.
    split at checked
    · cases checked
    · next named =>
      split at checked
      · cases checked
      · next fresh =>
        split at checked
        · cases checked
        · next ranged =>
          obtain ⟨terms, rest, fit, rfl, once⟩ := ih checked
          refine ⟨term :: terms, .cons first rest, ?_, ?_, ?_⟩
          · refine List.forall_mem_cons.2 ⟨⟨not_not.1 named, fun partition => ?_⟩, fit⟩
            have equality : term.equality ≠ false := fun range => ranged ⟨partition, range⟩
            simpa using equality
          · simp
          · exact fun distinct => once (List.nodup_cons.2 ⟨fresh, distinct⟩)

/-- A key condition that passes the check consists of terms that are fit for the key. -/
theorem checkKeyCondition_eq_ok {condition : Condition} {key : List KeyAttribute}
    (checked : checkKeyCondition condition key = .ok ()) :
    ∃ conditions terms, condition.conjuncts = .ok conditions ∧
      List.Forall₂ (fun condition term => Condition.keyTerm condition = .ok term)
        conditions terms ∧
      FitForKey key terms := by
  obtain ⟨conditions, members, checked⟩ := bind_eq_ok_iff.1 checked
  obtain ⟨constrained, checked, last⟩ := bind_eq_ok_iff.1 checked
  obtain ⟨terms, termed, fit, rfl, once⟩ := checkTerms_eq_ok checked
  refine ⟨conditions, terms, members, termed, fun term mem => (fit term mem).1, ?_, ?_⟩
  · simpa using once List.nodup_nil
  · intro name partition
    rw [partition] at last
    have mem : name ∈ terms.map KeyTerm.path := by
      by_contra absent
      rw [List.append_nil] at last
      simp [absent] at last
    obtain ⟨term, mem', rfl⟩ := List.mem_map.1 mem
    rw [← (fit term mem').2 partition]
    exact mem'

/-! ### What is checked and what is sent -/

namespace Condition

variable {settings : Settings}

/-- A term of a key condition is on one path, and says a term on what that is parsed as. -/
theorem keyTerm?_of_read {condition : Condition} {term : KeyTerm}
    {formula : Formula AttributeValue} (termed : condition.keyTerm = .ok term)
    (reads : condition.read settings = .ok formula) :
    condition.paths = [term.path] ∧ ∃ target, formula.keyTerm? = some (target, term.equality) ∧
      Path.parse term.path = .ok target := by
  unfold keyTerm at termed
  split at termed
  · next path comparison literal =>
    split at termed
    · cases termed
    · next ordered =>
      cases termed
      rw [read] at reads
      obtain ⟨left, read, reads⟩ := bind_eq_ok_iff.1 reads
      obtain ⟨target, parses, same⟩ := bind_eq_ok_iff.1 read
      cases same
      cases reads
      refine ⟨rfl, target, ?_, Path.read_eq_ok_iff.1 parses⟩
      exact if_neg ordered
  · next path lower upper =>
    cases termed
    rw [read] at reads
    obtain ⟨subject, read, reads⟩ := bind_eq_ok_iff.1 reads
    obtain ⟨target, parses, same⟩ := bind_eq_ok_iff.1 read
    cases same
    cases reads
    exact ⟨rfl, target, rfl, Path.read_eq_ok_iff.1 parses⟩
  · next path start =>
    cases termed
    rw [read] at reads
    obtain ⟨leaf, read, same⟩ := bind_eq_ok_iff.1 reads
    cases same
    obtain ⟨target, parses, same⟩ := bind_eq_ok_iff.1 read
    cases same
    exact ⟨rfl, target, rfl, Path.read_eq_ok_iff.1 parses⟩
  · cases termed

/-- The terms of a key condition say terms on what their paths are parsed as. -/
theorem areTerms_of_readMembers {conditions : List Condition} {terms : List KeyTerm}
    {formulas : List (Formula AttributeValue)}
    (termed : List.Forall₂ (fun condition term => keyTerm condition = .ok term) conditions terms)
    (reads : readMembers settings conditions = .ok formulas) :
    memberPaths conditions = terms.map KeyTerm.path ∧
      AreTerms Path.IsParsed (formulas.map Formula.keyTerm?) terms := by
  induction termed generalizing formulas with
  | nil =>
    cases reads
    exact ⟨rfl, .nil⟩
  | cons first _ ih =>
    obtain ⟨formula, others, read, reads', rfl⟩ := readMembers_cons_iff.1 reads
    obtain ⟨path, found⟩ := keyTerm?_of_read first read
    obtain ⟨paths, rest⟩ := ih reads'
    refine ⟨?_, .cons found rest⟩
    rw [memberPaths, path, paths]
    rfl

end Condition

/-- A key condition that passes the check says a key condition on what its paths are parsed as. -/
theorem isKeyCondition_of_check {condition : Condition} {key : List KeyAttribute}
    {settings : Settings} {said : Formula AttributeValue}
    (checked : checkKeyCondition condition key = .ok ())
    (reads : condition.normal.read settings = .ok said) :
    ∃ terms, FitForKey key terms ∧ condition.paths = terms.map KeyTerm.path ∧
      AreTerms Path.IsParsed said.keyTerms terms := by
  obtain ⟨conditions, terms, collected, termed, fit⟩ := checkKeyCondition_eq_ok checked
  obtain ⟨paths, found⟩ := Condition.areTerms_of_readMembers termed
    (Condition.readMembers_conjuncts collected reads)
  exact ⟨terms, fit, (Condition.memberPaths_conjuncts collected).symm.trans paths, found⟩

namespace Clauses

/-- **A query carries a key condition**, in the paths that the names of key attributes are parsed
as. These are the key attributes themselves exactly if none of the names in the condition has a
point or an opening bracket. -/
theorem applyToQuery_sends_keyCondition {clauses : Clauses}
    (stem : Settings.isStem clauses.settings.stem = true) {schema : TableSchema}
    {index : Option String} {request result : QueryRequest}
    (applied : clauses.applyToQuery request schema index = .ok result) :
    ∃ key condition text resolved, schema.keyOf index = .ok key ∧
      clauses.keyCondition = some condition ∧ result.keyCondition = some text ∧
      Formula.readBack result.names result.values text = some resolved ∧
      resolved.IsKeyCondition Path.IsParsed key ∧
      (resolved.IsKeyCondition Path.IsAttribute key ↔
        ∀ text ∈ condition.paths, '.' ∉ text.toList ∧ '[' ∉ text.toList) := by
  obtain ⟨key, compiled, target, checked, _, compiles, carried, _, names, values⟩ :=
    applyToQuery_eq_ok applied
  rw [checkKeys] at checked
  split at checked
  · next condition set =>
    have keyCondition? : clauses.conditionOf? .keyCondition = some condition := set
    obtain ⟨text, said, resolved, has, reads, found, equal⟩ :=
      readBack_of_compile stem compiles keyCondition?
    obtain ⟨terms, fit, paths, parsed⟩ := isKeyCondition_of_check checked reads
    -- What is read back has the terms of what was said.
    rw [← Formula.keyTerms_eq_of_same equal] at parsed
    refine ⟨key, condition, text, resolved, target, set, carried.trans has, ?_,
      ⟨terms, fit, parsed⟩, ?_⟩
    · rw [names, values, found]
    · rw [paths, List.forall_mem_map]
      constructor
      · rintro ⟨others, _, named⟩
        exact plain_of_areTerms parsed named
      · exact fun plain => ⟨terms, fit, areTerms_of_plain parsed plain⟩
  · cases checked

/-- A query whose key condition is an AND within an AND: it carries a key condition on the key
attributes themselves. -/
theorem applyToQuery_sends_keyCondition_of_nested_groups :
    ∃ (clauses : Clauses) (schema : TableSchema) (result : QueryRequest),
      clauses.keyCondition = some (.group .and
        [.group .and [.between (.path "at") (.value (.number "1")) (.value (.number "2"))],
          .compare (.path "id") .eq (.value (.number "1"))]) ∧
      clauses.applyToQuery {} schema none = .ok result ∧
      result.keyCondition = some "#at BETWEEN :v1 AND :v2 AND #id = :v1" ∧
      ∃ key condition text resolved, schema.keyOf none = .ok key ∧
        clauses.keyCondition = some condition ∧ result.keyCondition = some text ∧
        Formula.readBack result.names result.values text = some resolved ∧
        resolved.IsKeyCondition Path.IsParsed key ∧
        (resolved.IsKeyCondition Path.IsAttribute key ↔
          ∀ text ∈ condition.paths, '.' ∉ text.toList ∧ '[' ∉ text.toList) := by
  have yields : (applyToQuery
      { keyCondition := some (.group .and
          [.group .and [.between (.path "at") (.value (.number "1")) (.value (.number "2"))],
            .compare (.path "id") .eq (.value (.number "1"))]) } {}
      { name := "visits", key := [⟨"id", .partition⟩, ⟨"at", .sort⟩] } none).toOption.map
      QueryRequest.keyCondition = some (some "#at BETWEEN :v1 AND :v2 AND #id = :v1") := by
    decide +kernel
  obtain ⟨result, applied, shown⟩ := exists_ok_of_toOption yields
  exact ⟨_, _, result, rfl, applied, shown, applyToQuery_sends_keyCondition (by decide) applied⟩

/-- **A key attribute with a point in its name is not what is sent.** A query of its table is not
refused, but its key condition is on an attribute within another one, which is no key attribute. -/
theorem applyToQuery_sends_nested_path :
    ∃ (clauses : Clauses) (schema : TableSchema) (key : List KeyAttribute) (result : QueryRequest),
      Settings.isStem clauses.settings.stem = true ∧ schema.keyOf none = .ok key ∧
      key = [⟨"a.b", .partition⟩] ∧ clauses.applyToQuery {} schema none = .ok result ∧
      result.keyCondition = some "#a.#b = :v1" ∧
      ¬∃ text resolved, result.keyCondition = some text ∧
        Formula.readBack result.names result.values text = some resolved ∧
        resolved.IsKeyCondition Path.IsAttribute key := by
  have yields : (applyToQuery
      { keyCondition := some (.compare (.path "a.b") .eq (.value (.string "x"))) } {}
      { name := "t", key := [⟨"a.b", .partition⟩] } none).toOption.map (fun result =>
        (result.keyCondition, (result.keyCondition.bind
          (Formula.readBack result.names result.values)).map Formula.keyTerms)) =
      some (some "#a.#b = :v1", some [some (⟨"a", [.field "b"]⟩, true)]) := by
    decide +kernel
  obtain ⟨result, applied, shown⟩ := exists_ok_of_toOption yields
  obtain ⟨carried, terms⟩ := Prod.mk.inj shown
  refine ⟨_, _, _, result, ?_, rfl, rfl, applied, carried, ?_⟩
  · decide
  · rintro ⟨text, resolved, has, found, names, _, named⟩
    rw [has, Option.bind_some, found] at terms
    rw [Option.some.inj terms] at named
    -- The only term is on a path with a step.
    cases named with
    | cons first _ =>
      obtain ⟨target, entry, alone⟩ := first
      obtain ⟨same, _⟩ := Prod.mk.inj (Option.some.inj entry)
      exact absurd (congrArg Path.steps (same.trans alone)) (List.cons_ne_nil _ _)

end Clauses

end ItemExpr
