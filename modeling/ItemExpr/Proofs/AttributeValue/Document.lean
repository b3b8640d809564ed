import ItemExpr.AttributeValue.Conversion
import ItemExpr.Proofs.AttributeValue.Contents
import ItemExpr.Proofs.Json.Settled
import ItemExpr.Proofs.Request.Leaves

/-! # The values of documents

Two JSON documents are the same if their objects are as maps from names to documents, their arrays
are item by item, and their numbers have the same text (`Json.Same`). A document becomes a value of
lists and maps, texts, numbers, truth values and null (`AttributeValue.Plain`), and nothing is
confused on the way: the values of two documents are equal exactly if the documents are the same.
So two documents share a placeholder exactly if they are the same (`ofDocument_unconfused`). -/

namespace ItemExpr

/-! ### The same document -/

namespace Json

/-- The member of an object with a name: the last one, if there are several. -/
def member? (members : List (String × Json)) (name : String) : Option Json :=
  Entries.find? name members.reverse

/-- Whether two documents are the **same document**. -/
inductive Same : Json → Json → Prop where
  /-- Null. -/
  | null : Same .null .null
  /-- The same truth value. -/
  | bool (flag : Bool) : Same (.bool flag) (.bool flag)
  /-- Numbers with one text. -/
  | number {value value' : Json.Number} (text : value.text = value'.text) :
      Same (.number value) (.number value')
  /-- The same text. -/
  | string (text : String) : Same (.string text) (.string text)
  /-- The same items in the same order. -/
  | array {items items' : List Json} (each : List.Forall₂ Same items items') :
      Same (.array items) (.array items')
  /-- The same names, each with the same document. -/
  | object {members members' : List (String × Json)}
      (names : ∀ name, (member? members name).isSome = (member? members' name).isSome)
      (each : ∀ name value value', member? members name = some value →
        member? members' name = some value' → Same value value') :
      Same (.object members) (.object members')

variable {members : List (String × Json)} {name : String} {value : Json}

/-- The members of an object by name are the entries of a map. -/
theorem member?_eq_some_iff :
    member? members name = some value ↔ (name, value) ∈ Entries.ofList members := by
  rw [member?, Entries.mem_ofList_iff_find?]

theorem mem_of_member? (has : member? members name = some value) : (name, value) ∈ members :=
  Entries.mem_of_mem_ofList (member?_eq_some_iff.1 has)

end Json

namespace AttributeValue

/-! ### Plain values -/

/-- Whether a value is **plain** at every depth: no bytes, no sets, and no null but the usual one. -/
inductive Plain : AttributeValue → Prop where
  /-- A text. -/
  | string (text : String) : Plain (.string text)
  /-- A number. -/
  | number (text : String) : Plain (.number text)
  /-- A truth value. -/
  | boolean (flag : Bool) : Plain (.boolean flag)
  /-- Null. -/
  | null : Plain (.null true)
  /-- A list of plain values. -/
  | list {items : List AttributeValue} (each : ∀ item ∈ items, Plain item) : Plain (.list items)
  /-- A map of plain values. -/
  | map {entries : List (String × AttributeValue)}
      (each : ∀ key value, (key, value) ∈ entries → Plain value) : Plain (.map entries)

/-- The entries of the map of an object are the values of its members by name. -/
theorem mem_ofMembers {members : List (String × Json)} {name : String} {value : AttributeValue} :
    (name, value) ∈ Entries.ofList (ofMembers members) ↔
      ∃ document, Json.member? members name = some document ∧ ofDocument document = value := by
  simp only [ofMembers_eq_map, Entries.ofList_map, List.mem_map, Json.member?_eq_some_iff]
  constructor
  · rintro ⟨⟨_, document⟩, mem, same⟩
    obtain ⟨rfl, rfl⟩ := Prod.mk.inj same
    exact ⟨document, mem, rfl⟩
  · rintro ⟨document, mem, rfl⟩
    exact ⟨(name, document), mem, rfl⟩

/-- The keys of the map of an object are the names of its members. -/
theorem mem_keys_ofMembers {members : List (String × Json)} {name : String} :
    name ∈ Entries.keys (Entries.ofList (ofMembers members)) ↔
      (Json.member? members name).isSome = true := by
  rw [Entries.keys, List.mem_map, Option.isSome_iff_exists]
  constructor
  · rintro ⟨⟨_, value⟩, mem, rfl⟩
    obtain ⟨document, has, _⟩ := mem_ofMembers.1 mem
    exact ⟨document, has⟩
  · rintro ⟨document, has⟩
    exact ⟨(name, ofDocument document), mem_ofMembers.2 ⟨document, has, rfl⟩, rfl⟩

/-- **The value of a document is plain.** -/
theorem plain_ofDocument (document : Json) : (ofDocument document).Plain := by
  induction document using Json.induction with
  | null => exact .null
  | bool flag => exact .boolean flag
  | number value => exact .number value.text
  | string text => exact .string text
  | array items ih =>
    rw [ofDocument, ofDocuments_eq_map]
    exact .list (List.forall_mem_map.2 ih)
  | object members ih =>
    rw [ofDocument]
    refine .map fun key value mem => ?_
    obtain ⟨document, has, rfl⟩ := mem_ofMembers.1 mem
    exact ih key document (Json.mem_of_member? has)

/-! ### Equality of values of documents -/

/-- The values of two objects are equal exactly if the objects are the same, if this holds of the
members of one of them. -/
theorem same_ofMembers_iff {members members' : List (String × Json)}
    (each : ∀ name value, (name, value) ∈ members → ∀ value',
      same (ofDocument value) (ofDocument value') = true ↔ value.Same value') :
    sameEntries (Entries.ofList (ofMembers members)) (Entries.ofList (ofMembers members')) = true ↔
      (Json.object members).Same (.object members') := by
  rw [sameEntries_iff_forall₂, Entries.forall₂_iff_of_sorted (fun a b => same a b = true)
    (Entries.sorted_ofList _) (Entries.sorted_ofList _)]
  simp only [mem_keys_ofMembers, mem_ofMembers]
  constructor
  · rintro ⟨names, values⟩
    refine .object (fun name => Bool.eq_iff_iff.2 (names name)) ?_
    intro name value value' has has'
    exact (each name value (Json.mem_of_member? has) value').1
      (values name _ _ ⟨value, has, rfl⟩ ⟨value', has', rfl⟩)
  · rintro ⟨⟩
    next names values =>
    refine ⟨fun name => Bool.eq_iff_iff.1 (names name), ?_⟩
    rintro name _ _ ⟨value, has, rfl⟩ ⟨value', has', rfl⟩
    exact (each name value (Json.mem_of_member? has) value').2 (values name value value' has has')

/-- **The values of two documents are equal exactly if the documents are the same.** -/
theorem same_ofDocument_iff {document document' : Json} :
    same (ofDocument document) (ofDocument document') = true ↔ document.Same document' := by
  -- Documents of two kinds are not the same, and neither are their values equal.
  induction document using Json.induction generalizing document' with
  | null =>
    cases document' with
    | null => exact iff_of_true rfl .null
    | _ => exact iff_of_false nofun nofun
  | bool flag =>
    cases document' with
    | bool flag' =>
      rw [ofDocument, ofDocument, same, beq_iff_eq]
      constructor
      · rintro rfl
        exact .bool flag
      · rintro ⟨⟩
        rfl
    | _ => exact iff_of_false nofun nofun
  | string text =>
    cases document' with
    | string text' =>
      rw [ofDocument, ofDocument, same, beq_iff_eq]
      constructor
      · rintro rfl
        exact .string text
      · rintro ⟨⟩
        rfl
    | _ => exact iff_of_false nofun nofun
  | number value =>
    cases document' with
    | number value' =>
      rw [ofDocument, ofDocument, same, beq_iff_eq]
      constructor
      · exact .number
      · rintro ⟨⟩
        assumption
    | _ => exact iff_of_false nofun nofun
  | array items ih =>
    cases document' with
    | array items' =>
      rw [ofDocument, ofDocument, same, sameItems_iff_forall₂, ofDocuments_eq_map,
        ofDocuments_eq_map, List.forall₂_map_left_iff, List.forall₂_map_right_iff,
        forall₂_iff_of_mem fun item mem item' _ => ih item mem]
      constructor
      · exact .array
      · rintro ⟨⟩
        assumption
    | _ => exact iff_of_false nofun nofun
  | object members ih =>
    cases document' with
    | object members' =>
      rw [ofDocument, ofDocument, same]
      exact same_ofMembers_iff fun name value mem value' => ih name value mem
    | _ => exact iff_of_false nofun nofun

end AttributeValue

/-! ### Placeholders of documents -/

namespace Clauses

/-- Every literal of clauses that compile has a placeholder in their table. -/
theorem exists_ofValue?_of_compile {clauses : Clauses} {compiled : CompiledClauses}
    (ran : clauses.compile = .ok compiled) :
    compiled.placeholders.Consistent ∧
      ∀ literal ∈ clauses.literals,
        ∃ placeholder, compiled.placeholders.ofValue? literal = some placeholder := by
  obtain ⟨terms, reads, table⟩ := registersLeaves_of_compile ran
  rw [table]
  refine ⟨(Placeholders.consistent_empty _).registerAll _, fun literal mem => ?_⟩
  rw [literals, ← Operand.filterMap_literal? reads, ← Term.values_flatMap_mentions,
    List.mem_filterMap] at mem
  obtain ⟨mention, mem, value⟩ := mem
  cases mention with
  | name name => cases value
  | value value' =>
    cases value
    exact Placeholders.covers_registerAll _ _ _ mem

end Clauses

namespace AttributeValue

/-- **Documents are not confused.** The values of two documents are equal exactly if the documents
are the same, and they are plain. So whatever is done with a table of placeholders, two documents
were given one placeholder exactly if they are the same, and so it is in the table of clauses that
both of them are literals of. -/
theorem ofDocument_unconfused (document document' : Json) :
    ((ofDocument document == ofDocument document') = true ↔ document.Same document') ∧
    (ofDocument document).Plain ∧
    (∀ (settings : Settings) (tasks : List Task) (placeholder placeholder' : String),
      (.value (ofDocument document), placeholder) ∈
        (Placeholders.empty settings).history tasks →
      (.value (ofDocument document'), placeholder') ∈
        (Placeholders.empty settings).history tasks →
      (placeholder = placeholder' ↔ document.Same document')) ∧
    ∀ (clauses : Clauses) (compiled : CompiledClauses), clauses.compile = .ok compiled →
      ofDocument document ∈ clauses.literals → ofDocument document' ∈ clauses.literals →
      ∃ placeholder placeholder',
        compiled.placeholders.ofValue? (ofDocument document) = some placeholder ∧
        compiled.placeholders.ofValue? (ofDocument document') = some placeholder' ∧
        (placeholder = placeholder' ↔ document.Same document') := by
  refine ⟨same_ofDocument_iff, plain_ofDocument document, ?_, ?_⟩
  · intro settings tasks placeholder placeholder' mem mem'
    have consistent := (Placeholders.consistent_empty settings).run tasks
    have given := Placeholders.placeholder?_of_mem_history mem []
    have given' := Placeholders.placeholder?_of_mem_history mem' []
    exact (consistent.ofValue?_eq_iff given given').trans same_ofDocument_iff
  · intro clauses compiled ran mem mem'
    obtain ⟨consistent, given⟩ := Clauses.exists_ofValue?_of_compile ran
    obtain ⟨placeholder, found⟩ := given _ mem
    obtain ⟨placeholder', found'⟩ := given _ mem'
    exact ⟨placeholder, placeholder', found, found',
      (consistent.ofValue?_eq_iff found found').trans same_ofDocument_iff⟩

/-- An object with its members in another order is the same document and shares its placeholder. One
with a text in the place of a number, inside an array, has a placeholder of its own. -/
theorem ofDocument_unconfused_reordered :
    ∃ (first second third : Json) (clauses : Clauses) (compiled : CompiledClauses),
      first = .object [("a", .array [.number (.integer 1), .null]), ("b", .bool true)] ∧
      second = .object [("b", .bool true), ("a", .array [.number (.integer 1), .null])] ∧
      third = .object [("a", .array [.string "1", .null]), ("b", .bool true)] ∧
      clauses = { filter := some (.group .and
        [.compare (.path "x") .eq (.value (ofDocument first)),
          .compare (.path "y") .eq (.value (ofDocument second)),
          .compare (.path "z") .eq (.value (ofDocument third))]) } ∧
      clauses.compile = .ok compiled ∧
      compiled.filter = some "#x = :v1 AND #y = :v1 AND #z = :v2" ∧
      first.Same second ∧ ¬first.Same third ∧
      ∃ placeholder placeholder',
        compiled.placeholders.ofValue? (ofDocument first) = some placeholder ∧
        compiled.placeholders.ofValue? (ofDocument third) = some placeholder' ∧
        placeholder ≠ placeholder' := by
  obtain ⟨compiled, ran, filter⟩ : ∃ compiled : CompiledClauses, Clauses.compile
      { filter := some (.group .and
        [.compare (.path "x") .eq (.value (ofDocument
            (.object [("a", .array [.number (.integer 1), .null]), ("b", .bool true)]))),
          .compare (.path "y") .eq (.value (ofDocument
            (.object [("b", .bool true), ("a", .array [.number (.integer 1), .null])]))),
          .compare (.path "z") .eq (.value (ofDocument
            (.object [("a", .array [.string "1", .null]), ("b", .bool true)])))]) } =
      .ok compiled ∧ compiled.filter = some "#x = :v1 AND #y = :v1 AND #z = :v2" :=
    exists_ok_of_toOption (by decide +kernel)
  have same := (ofDocument_unconfused
    (.object [("a", .array [.number (.integer 1), .null]), ("b", .bool true)])
    (.object [("b", .bool true), ("a", .array [.number (.integer 1), .null])])).1.1
    (by decide +kernel)
  obtain ⟨decides, _, _, shared⟩ := ofDocument_unconfused
    (.object [("a", .array [.number (.integer 1), .null]), ("b", .bool true)])
    (.object [("a", .array [.string "1", .null]), ("b", .bool true)])
  have differ : ¬(Json.object [("a", .array [.number (.integer 1), .null]), ("b", .bool true)]).Same
      (.object [("a", .array [.string "1", .null]), ("b", .bool true)]) :=
    fun confused => absurd (decides.2 confused) (by decide +kernel)
  obtain ⟨placeholder, placeholder', found, found', iff⟩ := shared _ compiled ran
    List.mem_cons_self (List.mem_cons_of_mem _ (List.mem_cons_of_mem _ List.mem_cons_self))
  exact ⟨_, _, _, _, compiled, rfl, rfl, rfl, rfl, ran, filter, same, differ, placeholder,
    placeholder', found, found', fun confused => differ (iff.1 confused)⟩

end AttributeValue

end ItemExpr
