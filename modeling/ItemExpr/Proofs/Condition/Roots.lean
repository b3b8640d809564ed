import ItemExpr.Proofs.Collections.Increasing
import ItemExpr.Proofs.Condition.Faithful
import ItemExpr.Proofs.Condition.Paths

/-! # The roots of conditions

The top-level attributes of a condition are collected into a set that is there, one operand after
the other, and each is cut off the text of its path (`Condition.addRoots`). A condition that
compiles is read by another way: its paths are parsed, and spelled name by name. Both come to the
same attributes, wherever in the condition a path occurs (`Condition.Has`): the set grows by the
roots of the paths and by nothing else, and by what the paths of the compiled text begin with
(`Condition.addRoots_exact`). -/

namespace ItemExpr

/-! ### Where paths occur -/

/-- Whether the path of a text **occurs** in an operand: as the attribute, or as that whose size it
is. -/
inductive Operand.Has (text : String) : Operand → Prop where
  /-- The operand is the attribute. -/
  | path : Has text (.path text)
  /-- The operand is the size of the attribute. -/
  | size : Has text (.size text)

/-- Whether the path of a text **occurs** in a condition. -/
inductive Condition.Has (text : String) : Condition → Prop where
  /-- On the left of a comparison. -/
  | left {left right : Operand} {comparison : Comparison} (has : left.Has text) :
    Has text (.compare left comparison right)
  /-- On the right of a comparison. -/
  | right {left right : Operand} {comparison : Comparison} (has : right.Has text) :
    Has text (.compare left comparison right)
  /-- Between two bounds. -/
  | bounded {operand lower upper : Operand} (has : operand.Has text) :
    Has text (.between operand lower upper)
  /-- As a lower bound. -/
  | lower {operand lower upper : Operand} (has : lower.Has text) :
    Has text (.between operand lower upper)
  /-- As an upper bound. -/
  | upper {operand lower upper : Operand} (has : upper.Has text) :
    Has text (.between operand lower upper)
  /-- In front of candidates. -/
  | among {operand : Operand} {candidates : List Operand} (has : operand.Has text) :
    Has text (.among operand candidates)
  /-- As one of the candidates. -/
  | candidate {operand candidate : Operand} {candidates : List Operand}
    (mem : candidate ∈ candidates) (has : candidate.Has text) :
    Has text (.among operand candidates)
  /-- In a member of a group. -/
  | member {connective : Connective} {member : Condition} {members : List Condition}
    (mem : member ∈ members) (has : Has text member) : Has text (.group connective members)
  /-- Under a NOT. -/
  | not {condition : Condition} (has : Has text condition) : Has text (.not condition)
  /-- As what exists or does not. -/
  | exists {negated : Bool} : Has text (.exists text negated)
  /-- As what is of a type. -/
  | hasType {type : AttributeType} : Has text (.hasType text type)
  /-- As what begins with an operand. -/
  | beginning {start : Operand} : Has text (.beginsWith text start)
  /-- As what an attribute begins with. -/
  | start {path : String} {start : Operand} (has : start.Has text) :
    Has text (.beginsWith path start)
  /-- As what contains an operand. -/
  | container {element : Operand} : Has text (.contains text element)
  /-- As what an attribute contains. -/
  | element {path : String} {element : Operand} (has : element.Has text) :
    Has text (.contains path element)

/-- What occurs in an operand is its path, if it has one. -/
theorem Operand.has_iff {text : String} {operand : Operand} :
    operand.Has text ↔ operand.path? = some text := by
  cases operand with
  | path | size =>
    constructor
    · rintro ⟨⟩
      rfl
    · rintro ⟨⟩
      constructor
  | value literal => exact iff_of_false nofun nofun

/-- Of some operands, the first one has a path or another one does. -/
theorem Operand.mem_filterMap_cons {text : String} {operand : Operand} {operands : List Operand} :
    text ∈ (operand :: operands).filterMap Operand.path? ↔
      operand.Has text ∨ text ∈ operands.filterMap Operand.path? := by
  simp only [List.mem_filterMap, List.exists_mem_cons_iff, Operand.has_iff]

namespace Condition

/-- **The paths of a condition are those that occur in it.** -/
theorem mem_paths_iff {text : String} {condition : Condition} :
    text ∈ condition.paths ↔ condition.Has text := by
  induction condition with
  | group connective members ih =>
    rw [paths, memberPaths_eq_flatMap, List.mem_flatMap]
    constructor
    · rintro ⟨member, mem, inside⟩
      exact .member mem ((ih member mem).1 inside)
    · intro has
      cases has with
      | member mem has => exact ⟨_, mem, (ih _ mem).2 has⟩
  | not condition ih =>
    rw [paths, ih]
    constructor
    · exact .not
    · intro has
      cases has with
      | not has => exact has
  | test condition test =>
    cases condition with
    | group | not => cases test
    | compare left comparison right =>
      simp only [paths, Operand.mem_filterMap_cons, List.filterMap_nil, List.not_mem_nil, or_false]
      constructor
      · rintro (has | has)
        · exact .left has
        · exact .right has
      · intro has
        cases has with
        | left has => exact Or.inl has
        | right has => exact Or.inr has
    | between operand lower upper =>
      simp only [paths, Operand.mem_filterMap_cons, List.filterMap_nil, List.not_mem_nil, or_false]
      constructor
      · rintro (has | has | has)
        · exact .bounded has
        · exact .lower has
        · exact .upper has
      · intro has
        cases has with
        | bounded has => exact Or.inl has
        | lower has => exact Or.inr (Or.inl has)
        | upper has => exact Or.inr (Or.inr has)
    | among operand candidates =>
      -- Candidates are a list of any length, so that one of them is found by membership.
      rw [paths, Operand.mem_filterMap_cons, List.mem_filterMap]
      simp only [← Operand.has_iff]
      constructor
      · rintro (has | ⟨candidate, mem, has⟩)
        · exact .among has
        · exact .candidate mem has
      · intro has
        cases has with
        | among has => exact Or.inl has
        | candidate mem has => exact Or.inr ⟨_, mem, has⟩
    | «exists» path negated =>
      rw [paths, List.mem_singleton]
      constructor
      · rintro rfl
        exact .exists
      · rintro ⟨⟩
        rfl
    | hasType path type =>
      rw [paths, List.mem_singleton]
      constructor
      · rintro rfl
        exact .hasType
      · rintro ⟨⟩
        rfl
    | beginsWith path start =>
      simp only [paths, List.mem_cons, Operand.mem_filterMap_cons, List.filterMap_nil,
        List.not_mem_nil, or_false]
      constructor
      · rintro (rfl | has)
        · exact .beginning
        · exact .start has
      · intro has
        cases has with
        | beginning => exact Or.inl rfl
        | start has => exact Or.inr has
    | contains path element =>
      simp only [paths, List.mem_cons, Operand.mem_filterMap_cons, List.filterMap_nil,
        List.not_mem_nil, or_false]
      constructor
      · rintro (rfl | has)
        · exact .container
        · exact .element has
      · intro has
        cases has with
        | container => exact Or.inl rfl
        | element has => exact Or.inr has

/-! ### Collecting roots -/

/-- Add what the texts of paths begin with to a set, one text after the other. -/
def addRootTexts (set texts : List String) : List String :=
  texts.foldl (fun set text => Members.insert (Path.rootText text) set) set

theorem addRootTexts_append (set first second : List String) :
    addRootTexts set (first ++ second) = addRootTexts (addRootTexts set first) second :=
  List.foldl_append

theorem mem_addRootTexts {set texts : List String} {root : String} :
    root ∈ addRootTexts set texts ↔ root ∈ set ∨ root ∈ texts.map Path.rootText := by
  induction texts generalizing set with
  | nil => simp [addRootTexts]
  | cons text texts ih =>
    rw [addRootTexts, List.foldl_cons, ← addRootTexts, ih, Members.mem_insert, List.map_cons,
      List.mem_cons, or_left_comm, or_assoc]

/-- A set that increases still does when roots are added. -/
theorem pairwise_addRootTexts {set : List String} (increasing : set.Pairwise (· < ·))
    (texts : List String) : (addRootTexts set texts).Pairwise (· < ·) := by
  induction texts generalizing set with
  | nil => exact increasing
  | cons text texts ih => exact ih (Members.pairwise_insert increasing)

/-- Operands add what their paths begin with. -/
theorem foldl_addRoot (set : List String) (operands : List Operand) :
    operands.foldl Operand.addRoot set =
      addRootTexts set (operands.filterMap Operand.path?) := by
  induction operands generalizing set with
  | nil => rfl
  | cons operand operands ih =>
    rw [List.foldl_cons, ih]
    cases operand with
    | path | size => rfl
    | value => rfl

/-- **Roots are collected path by path**, from left to right. -/
theorem addRoots_eq (set : List String) (condition : Condition) :
    condition.addRoots set = addRootTexts set condition.paths := by
  induction condition generalizing set with
  | group connective members ih =>
    show addMemberRoots set members = addRootTexts set (memberPaths members)
    -- A member starts with the set that those before it leave, so this holds for every set.
    induction members generalizing set with
    | nil => rfl
    | cons member members ih' =>
      rw [List.forall_mem_cons] at ih
      rw [addMemberRoots, memberPaths, addRootTexts_append, ih.1, ih' ih.2]
  | not condition ih => exact ih set
  | test condition test =>
    cases condition with
    | group | not => cases test
    | compare | between | among => exact foldl_addRoot set _
    | «exists» | hasType => rfl
    | beginsWith path start => exact foldl_addRoot _ [start]
    | contains path element => exact foldl_addRoot _ [element]

/-- The top-level attributes of a condition are those that are added to the empty set. -/
theorem roots_eq_addRoots (condition : Condition) : condition.roots = condition.addRoots [] := by
  refine (Members.pairwise_distinct _).eq_of_mem_iff ?_ fun root => ?_
  · rw [addRoots_eq]
    exact pairwise_addRootTexts List.Pairwise.nil _
  · rw [Members.mem_distinct, addRoots_eq, mem_addRootTexts]
    simp only [List.not_mem_nil, false_or]

/-- If the paths of a condition are parsed, what is added to a set are their roots. -/
theorem mem_addRoots_of_parseAll {condition : Condition} {paths : List Path}
    (parses : Path.ParseAll condition.paths paths) {set : List String} {root : String} :
    root ∈ condition.addRoots set ↔ root ∈ set ∨ ∃ path ∈ paths, path.root = root := by
  rw [addRoots_eq, mem_addRootTexts, Path.map_rootText_of_parseAll parses, List.mem_map]

open Compile

/-- **Collecting the roots of a condition agrees with parsing its paths.** If every path that occurs
in a condition is one, then their roots are added to a set, and nothing else. -/
theorem addRoots_exact (condition : Condition) :
    ((∀ text, condition.Has text → ∃ path, Path.parse text = .ok path) →
      ∀ (set : List String) (root : String), root ∈ condition.addRoots set ↔
        root ∈ set ∨ ∃ text path, condition.Has text ∧ Path.parse text = .ok path ∧
          path.root = root) ∧
    condition.roots = condition.addRoots [] ∧
    (∀ (settings : Settings) (tasks : List Task) (clause : Clause) (text : String)
        (after : Placeholders),
      (condition.compileClause clause).runOn ((Placeholders.empty settings).run tasks) =
        (.ok text, after) →
      ∃ written resolved, text = written.text ∧
        (Settings.isStem settings.stem = true → Formula.parse text = some written) ∧
        written.resolve after.name? after.value? = some resolved ∧
        ∀ (set : List String) (root : String), root ∈ condition.addRoots set ↔
          root ∈ set ∨ ∃ path ∈ resolved.paths, path.root = root) := by
  refine ⟨?_, roots_eq_addRoots condition, ?_⟩
  · intro parses set root
    rw [addRoots_eq, mem_addRootTexts, List.mem_map]
    refine or_congr_right ⟨?_, ?_⟩
    · rintro ⟨text, mem, rfl⟩
      have has := mem_paths_iff.1 mem
      obtain ⟨path, parse⟩ := parses text has
      exact ⟨text, path, has, parse, Path.root_of_parse parse⟩
    · rintro ⟨text, path, has, parse, rfl⟩
      exact ⟨text, mem_paths_iff.2 has, (Path.root_of_parse parse).symm⟩
  · intro settings tasks clause text after compiled
    have consistent : ((Placeholders.empty settings).run tasks).Consistent :=
      (Placeholders.consistent_empty settings).run tasks
    rw [runOn_compileClause, Placeholders.settings_run, Placeholders.settings_empty] at compiled
    obtain ⟨phrase, means, rfl, rfl⟩ := clauseOutcome_eq_ok compiled
    obtain ⟨said, reads, rfl⟩ := map_eq_ok_iff.1 means
    -- What is written can be looked up whatever the stem, but be read only with a fit one.
    have covers := Placeholders.covers_registerAll ((Placeholders.empty settings).run tasks)
      said.mentions
    obtain ⟨resolved, resolves, equal⟩ :=
      Formula.resolve_spell said ((consistent.registerAll said.mentions).inverts covers)
    refine ⟨_, resolved, rfl, fun stem => ?_, resolves, fun set root => ?_⟩
    · refine (Formula.parse_spell (consistent.registerAll said.mentions) ?_
        (flat_of_read_normal reads) covers).1
      rw [Placeholders.settings_registerAll, Placeholders.settings_run]
      exact stem
    · have parses := parse_paths_of_read reads
      rw [paths_normal] at parses
      rw [Formula.paths_eq_of_same equal]
      exact mem_addRoots_of_parseAll parses

/-- A condition with a path wherever one can stand, some of them more than once. It compiles, and
the roots of its paths are added to a set in which there is one of them already. -/
theorem addRoots_exact_everywhere :
    ∃ (condition : Condition) (text : String) (after : Placeholders),
      condition = .group .or
        [.not (.compare (.size "info.tags[0]") .ge (.path "id")),
          .between (.path "age") (.path "low.id") (.size "high[07]"),
          .among (.path "name") [.value (.boolean true), .path "nick"],
          .group .and [.exists "info.gone" true, .hasType "kind" .string],
          .beginsWith "word" (.path "stem"), .contains "list" (.path "item.x")] ∧
      (∀ text, condition.Has text → ∃ path, Path.parse text = .ok path) ∧
      (condition.compileClause .filter).runOn ((Placeholders.empty {}).run []) =
        (.ok text, after) ∧
      text = "NOT (size(#info.#tags[0]) >= #id) OR #age BETWEEN #low.#id AND size(#high[7]) OR " ++
        "#name IN (:v1, #nick) OR (attribute_not_exists(#info.#gone) AND " ++
        "attribute_type(#kind, :v2)) OR begins_with(#word, #stem) OR " ++
        "contains(#list, #item.#x)" ∧
      condition.addRoots ["id", "zone"] = ["age", "high", "id", "info", "item", "kind", "list",
        "low", "name", "nick", "stem", "word", "zone"] ∧
      (∀ root : String, root ∈ condition.addRoots ["id", "zone"] ↔
        root ∈ ["id", "zone"] ∨ ∃ text path, condition.Has text ∧ Path.parse text = .ok path ∧
          path.root = root) ∧
      ∃ written resolved, Formula.parse text = some written ∧
        written.resolve after.name? after.value? = some resolved ∧
        ∀ root : String, root ∈ condition.addRoots ["id", "zone"] ↔
          root ∈ ["id", "zone"] ∨ ∃ path ∈ resolved.paths, path.root = root := by
  -- The condition gets a name, and is opened again only where something is computed from it.
  generalize is : Condition.group .or
    [.not (.compare (.size "info.tags[0]") .ge (.path "id")),
      .between (.path "age") (.path "low.id") (.size "high[07]"),
      .among (.path "name") [.value (.boolean true), .path "nick"],
      .group .and [.exists "info.gone" true, .hasType "kind" .string],
      .beginsWith "word" (.path "stem"), .contains "list" (.path "item.x")] = condition
  have parses : ∀ text, condition.Has text → ∃ path, Path.parse text = .ok path := by
    have all : ∀ text ∈ condition.paths, (Path.parse text).toOption.isSome = true := by
      rw [← is]
      decide +kernel
    intro text has
    have parsed := all text (mem_paths_iff.2 has)
    cases parse : Path.parse text with
    | error refusal =>
      rw [parse] at parsed
      cases parsed
    | ok path => exact ⟨path, rfl⟩
  generalize ran : (condition.compileClause .filter).runOn ((Placeholders.empty {}).run []) =
    outcome
  have yields : outcome.1.toOption = some
      ("NOT (size(#info.#tags[0]) >= #id) OR #age BETWEEN #low.#id AND size(#high[7]) OR " ++
        "#name IN (:v1, #nick) OR (attribute_not_exists(#info.#gone) AND " ++
        "attribute_type(#kind, :v2)) OR begins_with(#word, #stem) OR " ++
        "contains(#list, #item.#x)") := by
    rw [← ran, ← is]
    decide +kernel
  have added : condition.addRoots ["id", "zone"] = ["age", "high", "id", "info", "item", "kind",
      "list", "low", "name", "nick", "stem", "word", "zone"] := by
    rw [← is]
    decide +kernel
  obtain ⟨outcome, after⟩ := outcome
  cases outcome with
  | error refusal => cases yields
  | ok text =>
    obtain ⟨written, resolved, _, read, resolves, agrees⟩ :=
      (addRoots_exact condition).2.2 {} [] .filter text after ran
    exact ⟨condition, text, after, rfl, parses, ran, Option.some.inj yields, added,
      (addRoots_exact condition).1 parses _, written, resolved, read (by decide), resolves,
      agrees _⟩

end Condition

end ItemExpr
