import ItemExpr.Proofs.Condition.Paths
import ItemExpr.Proofs.Request.Spelled

/-! # Filters of queries

A query finds items by their key, and its filter is about their other attributes only. The check of
a filter cuts the texts of its paths, while what is sent has been parsed and spelled in
placeholders; both see the same top-level attributes (`checkFilter_eq_ok_iff_of_parse`). So the
filter of a query that is not refused is on no key attribute, and a filter that is on none is not
refused for it (`Clauses.applyToQuery_filter_avoids_key`). -/

namespace ItemExpr

open Compile

/-- A filter passes the check exactly if none of its paths begins with a key attribute. -/
theorem checkFilter_eq_ok_iff {filter : Condition} {key : List KeyAttribute} :
    checkFilter filter key = .ok () ↔
      ∀ root ∈ filter.paths.map Path.rootText, root ∉ key.map KeyAttribute.name := by
  rw [checkFilter]
  split
  · next entry found =>
    refine iff_of_false nofun fun avoids => ?_
    have refused : entry.name ∈ filter.roots := by simpa using List.find?_some found
    exact avoids entry.name (Condition.mem_roots.1 refused)
      (List.mem_map_of_mem (List.mem_of_find?_eq_some found))
  · next none =>
    refine iff_of_true rfl fun root mem named => ?_
    obtain ⟨entry, inKey, rfl⟩ := List.mem_map.1 named
    have other := List.find?_eq_none.1 none entry inKey
    exact other (decide_eq_true (Condition.mem_roots.2 mem))

/-- A filter whose paths can be parsed passes the check exactly if none of them has a key attribute
as its root. -/
theorem checkFilter_eq_ok_iff_of_parse {filter : Condition} {key : List KeyAttribute}
    {paths : List Path} (parses : Path.ParseAll filter.paths paths) :
    checkFilter filter key = .ok () ↔ ∀ path ∈ paths, path.root ∉ key.map KeyAttribute.name := by
  rw [checkFilter_eq_ok_iff, Path.map_rootText_of_parseAll parses, List.forall_mem_map]

namespace Clauses

/-- **The filter of a query is on no key attribute of its target**, wherever in the filter a path
stands; and a filter whose paths can be parsed and are on none passes the check. -/
theorem applyToQuery_filter_avoids_key {clauses : Clauses}
    (stem : Settings.isStem clauses.settings.stem = true) {filter : Condition}
    (set : clauses.filter = some filter) {schema : TableSchema} {index : Option String}
    {key : List KeyAttribute} (target : schema.keyOf index = .ok key) :
    (∀ request result, clauses.applyToQuery request schema index = .ok result →
      ∃ text resolved, result.filter = some text ∧
        Formula.readBack result.names result.values text = some resolved ∧
        ∀ path ∈ resolved.paths, path.root ∉ key.map KeyAttribute.name) ∧
    ((∀ text ∈ filter.paths, ∃ path, Path.parse text = .ok path ∧
        path.root ∉ key.map KeyAttribute.name) →
      clauses.checkFilters key = .ok ()) := by
  have check : clauses.checkFilters key = checkFilter filter key := by rw [checkFilters, set]
  constructor
  · intro request result applied
    obtain ⟨key', compiled, target', _, checked, compiles, _, filtered, names, values⟩ :=
      applyToQuery_eq_ok applied
    obtain rfl : key = key' := Except.ok.inj (target.symm.trans target')
    rw [check] at checked
    have filter? : clauses.conditionOf? .filter = some filter := set
    obtain ⟨text, said, resolved, has, reads, found, equal⟩ :=
      readBack_of_compile stem compiles filter?
    -- The check has seen the paths that are sent.
    have parses := Condition.parse_paths_of_read reads
    rw [Condition.paths_normal] at parses
    refine ⟨text, resolved, filtered.trans has, ?_, ?_⟩
    · rw [names, values, found]
    · rw [Formula.paths_eq_of_same equal]
      exact (checkFilter_eq_ok_iff_of_parse parses).1 checked
  · intro avoids
    obtain ⟨paths, parses, others⟩ := Path.exists_parseAll avoids
    rw [check]
    exact (checkFilter_eq_ok_iff_of_parse parses).2 others

/-- A query of an index, whose filter is on the key of the table but not on that of the index: it is
not refused, and its filter is on no key attribute of the index. -/
theorem applyToQuery_filter_avoids_key_of_index :
    ∃ (clauses : Clauses) (filter : Condition) (schema : TableSchema) (key : List KeyAttribute)
      (result : QueryRequest),
      schema.keyOf (some "byCity") = .ok key ∧ key = [⟨"city", .partition⟩] ∧
      clauses.filter = some filter ∧
      filter = .group .or
        [.not (.compare (.size "info.tags[0]") .ge (.path "id")),
          .among (.path "name") [.path "nick", .value (.boolean true)]] ∧
      clauses.applyToQuery {} schema (some "byCity") = .ok result ∧
      result.filter = some "NOT (size(#info.#tags[0]) >= #id) OR #name IN (#nick, :v1)" ∧
      (∃ text resolved, result.filter = some text ∧
        Formula.readBack result.names result.values text = some resolved ∧
        ∀ path ∈ resolved.paths, path.root ∉ key.map KeyAttribute.name) ∧
      clauses.checkFilters key = .ok () := by
  have yields : (applyToQuery
      { keyCondition := some (.compare (.path "city") .eq (.value (.boolean true)))
        filter := some (.group .or
          [.not (.compare (.size "info.tags[0]") .ge (.path "id")),
            .among (.path "name") [.path "nick", .value (.boolean true)]]) } {}
      { name := "people", key := [⟨"id", .partition⟩]
        globalIndexes := [{ name := "byCity", key := [⟨"city", .partition⟩] }] }
      (some "byCity")).toOption.map QueryRequest.filter =
      some (some "NOT (size(#info.#tags[0]) >= #id) OR #name IN (#nick, :v1)") := by
    decide +kernel
  obtain ⟨result, applied, shown⟩ := exists_ok_of_toOption yields
  obtain ⟨key, _, target, _⟩ := applyToQuery_eq_ok applied
  obtain rfl : [⟨"city", .partition⟩] = key := Except.ok.inj target
  refine ⟨_, _, _, _, result, target, rfl, ?set, rfl, applied, shown, ?sound, ?complete⟩
  case set => rfl
  case sound => exact (applyToQuery_filter_avoids_key (by decide) rfl target).1 {} result applied
  case complete =>
    refine (applyToQuery_filter_avoids_key (by decide) rfl target).2 ?_
    have parses : ∀ text ∈ ["info.tags[0]", "id", "name", "nick"],
        ∃ path, Path.parse text = .ok path ∧ path.root ∉ ["city"] := by
      simp only [List.forall_mem_cons, List.not_mem_nil, false_imp_iff, implies_true, and_true]
      exact ⟨⟨⟨"info", [.field "tags", .index 0]⟩, rfl, by decide⟩, ⟨⟨"id", []⟩, rfl, by decide⟩,
        ⟨⟨"name", []⟩, rfl, by decide⟩, ⟨⟨"nick", []⟩, rfl, by decide⟩⟩
    exact parses

end Clauses

end ItemExpr
