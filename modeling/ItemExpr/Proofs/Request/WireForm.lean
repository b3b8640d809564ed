import ItemExpr.Placeholders
import ItemExpr.Proofs.Wire.Restored
import ItemExpr.Request.Input
import ItemExpr.TableSchema

/-! # Requests and schemas on the wire

Every request, every schema and the bindings of a request are read back from what they are written
as, although absent options, empty maps and empty lists are not written
(`requests_and_schemas_roundTrip`). The entries of a map may be written in any order, at every depth
of the values in it (`Item.Lists`). For each record its fields are gone through in order: what a
field is left out for is what the blank record has. -/

namespace ItemExpr

open Wire

/-! ### Maps in any order -/

/-- Whether an item is another one with the entries of its maps **in any order**, at every depth. -/
def Item.Lists (listing item : Item) : Prop :=
  (AttributeValue.map listing).Keyed ∧ (AttributeValue.map listing).arranged = .map item

theorem Item.lists_of_ordered {item : Item} (ordered : (AttributeValue.map item).Ordered) :
    Item.Lists item item :=
  ⟨ordered.keyed, ordered.arranged_eq⟩

/-- An item is restored from its entries in any order. -/
theorem Item.Lists.restores {listing item : Item} (lists : Item.Lists listing item) :
    Item.codec.Restores listing item := by
  obtain ⟨keyed, same⟩ := lists
  rw [AttributeValue.arranged, AttributeValue.arrangedEntries_eq_map] at same
  have restored := restores_attributeValues keyed
  rw [AttributeValue.map.inj same] at restored
  exact restored

/-- Only the empty item has no entries. -/
theorem Item.Lists.eq_nil {listing item : Item} (lists : Item.Lists listing item)
    (empty : listing = []) : item = [] := by
  subst empty
  exact (AttributeValue.map.inj lists.2).symm

/-- Only the empty map has no entries. -/
theorem Entries.Lists.eq_nil {α : Type} {listing map : Entries α} (lists : listing.Lists map)
    (empty : listing = []) : map = [] := by
  subst empty
  exact lists.2.nil_eq.symm

/-! ### Choices -/

theorem ReturnedAttributes.lawful : ReturnedAttributes.codec.Lawful :=
  Codec.lawful_choice fun choice => by cases choice <;> decide

theorem Selection.lawful : Selection.codec.Lawful :=
  Codec.lawful_choice fun choice => by cases choice <;> decide

theorem KeyRole.lawful : KeyRole.codec.Lawful :=
  Codec.lawful_choice fun role => by cases role <;> decide

theorem IndexContents.lawful : IndexContents.codec.Lawful :=
  Codec.lawful_choice fun contents => by cases contents <;> decide

/-! ### Requests -/

section

variable {key item values : Item} {names : Entries String}

theorem GetRequest.restores {r : GetRequest} (keyListed : key.Lists r.key)
    (namesListed : names.Lists r.names) :
    GetRequest.record.codec.Restores { r with key, names } r := by
  refine Record.restores (by decide) ?_
  refine .cons (Field.restores_required (Codec.lawful_text _)) ?_
  refine .cons (Field.restores_required keyListed.restores) ?_
  refine .cons (Field.restores_optional (Codec.lawful_boolean.option _) rfl) ?_
  refine .cons (Field.restores_optional (Codec.lawful_text.option _) rfl) ?_
  refine .cons (Field.restores_collection (Codec.lawful_text.restores_entries namesListed)
    namesListed.eq_nil rfl) ?_
  exact .nil

theorem PutRequest.restores {r : PutRequest} (itemListed : item.Lists r.item)
    (namesListed : names.Lists r.names) (valuesListed : values.Lists r.values) :
    PutRequest.record.codec.Restores { r with item, names, values } r := by
  refine Record.restores (by decide) ?_
  refine .cons (Field.restores_required (Codec.lawful_text _)) ?_
  refine .cons (Field.restores_required itemListed.restores) ?_
  refine .cons (Field.restores_optional (Codec.lawful_text.option _) rfl) ?_
  refine .cons (Field.restores_collection (Codec.lawful_text.restores_entries namesListed)
    namesListed.eq_nil rfl) ?_
  refine .cons (Field.restores_collection valuesListed.restores valuesListed.eq_nil rfl) ?_
  refine .cons (Field.restores_optional (ReturnedAttributes.lawful.option _) rfl) ?_
  exact .nil

theorem UpdateRequest.restores {r : UpdateRequest} (keyListed : key.Lists r.key)
    (namesListed : names.Lists r.names) (valuesListed : values.Lists r.values) :
    UpdateRequest.record.codec.Restores { r with key, names, values } r := by
  refine Record.restores (by decide) ?_
  refine .cons (Field.restores_required (Codec.lawful_text _)) ?_
  refine .cons (Field.restores_required keyListed.restores) ?_
  refine .cons (Field.restores_optional (Codec.lawful_text.option _) rfl) ?_
  refine .cons (Field.restores_optional (Codec.lawful_text.option _) rfl) ?_
  refine .cons (Field.restores_collection (Codec.lawful_text.restores_entries namesListed)
    namesListed.eq_nil rfl) ?_
  refine .cons (Field.restores_collection valuesListed.restores valuesListed.eq_nil rfl) ?_
  refine .cons (Field.restores_optional (ReturnedAttributes.lawful.option _) rfl) ?_
  exact .nil

theorem DeleteRequest.restores {r : DeleteRequest} (keyListed : key.Lists r.key)
    (namesListed : names.Lists r.names) (valuesListed : values.Lists r.values) :
    DeleteRequest.record.codec.Restores { r with key, names, values } r := by
  refine Record.restores (by decide) ?_
  refine .cons (Field.restores_required (Codec.lawful_text _)) ?_
  refine .cons (Field.restores_required keyListed.restores) ?_
  refine .cons (Field.restores_optional (Codec.lawful_text.option _) rfl) ?_
  refine .cons (Field.restores_collection (Codec.lawful_text.restores_entries namesListed)
    namesListed.eq_nil rfl) ?_
  refine .cons (Field.restores_collection valuesListed.restores valuesListed.eq_nil rfl) ?_
  refine .cons (Field.restores_optional (ReturnedAttributes.lawful.option _) rfl) ?_
  exact .nil

theorem QueryRequest.restores {r : QueryRequest} (namesListed : names.Lists r.names)
    (valuesListed : values.Lists r.values) :
    QueryRequest.record.codec.Restores { r with names, values } r := by
  refine Record.restores (by decide) ?_
  refine .cons (Field.restores_required (Codec.lawful_text _)) ?_
  refine .cons (Field.restores_optional (Codec.lawful_text.option _) rfl) ?_
  refine .cons (Field.restores_optional (Codec.lawful_text.option _) rfl) ?_
  refine .cons (Field.restores_optional (Codec.lawful_text.option _) rfl) ?_
  refine .cons (Field.restores_optional (Codec.lawful_text.option _) rfl) ?_
  refine .cons (Field.restores_collection (Codec.lawful_text.restores_entries namesListed)
    namesListed.eq_nil rfl) ?_
  refine .cons (Field.restores_collection valuesListed.restores valuesListed.eq_nil rfl) ?_
  refine .cons (Field.restores_optional (Codec.lawful_boolean.option _) rfl) ?_
  refine .cons (Field.restores_optional (Codec.lawful_int32.option _) rfl) ?_
  refine .cons (Field.restores_optional (Selection.lawful.option _) rfl) ?_
  exact .nil

theorem ScanRequest.restores {r : ScanRequest} (namesListed : names.Lists r.names)
    (valuesListed : values.Lists r.values) :
    ScanRequest.record.codec.Restores { r with names, values } r := by
  refine Record.restores (by decide) ?_
  refine .cons (Field.restores_required (Codec.lawful_text _)) ?_
  refine .cons (Field.restores_optional (Codec.lawful_text.option _) rfl) ?_
  refine .cons (Field.restores_optional (Codec.lawful_text.option _) rfl) ?_
  refine .cons (Field.restores_optional (Codec.lawful_text.option _) rfl) ?_
  refine .cons (Field.restores_collection (Codec.lawful_text.restores_entries namesListed)
    namesListed.eq_nil rfl) ?_
  refine .cons (Field.restores_collection valuesListed.restores valuesListed.eq_nil rfl) ?_
  refine .cons (Field.restores_optional (Codec.lawful_int32.option _) rfl) ?_
  refine .cons (Field.restores_optional (Selection.lawful.option _) rfl) ?_
  exact .nil

end

/-! ### Bindings -/

/-- Bindings are restored from the entries of their maps in any order; a map that is absent stays
so. -/
theorem Bindings.restores {written b : Bindings}
    (namesListed : Option.Rel Entries.Lists written.names b.names)
    (valuesListed : Option.Rel Item.Lists written.values b.values) :
    Bindings.record.codec.Restores written b := by
  have names := Codec.restores_option
    (fun _ _ lists => Codec.lawful_text.restores_entries lists) namesListed
  have values := Codec.restores_option (fun _ _ => Item.Lists.restores) valuesListed
  refine Record.restores (by decide) ?_
  refine .cons (Field.restores_optional names rfl) ?_
  refine .cons (Field.restores_optional values rfl) ?_
  exact .nil

/-! ### Schemas -/

theorem KeyAttribute.lawful : KeyAttribute.record.codec.Lawful := by
  intro keyAttribute
  refine Record.restores (by decide) ?_
  refine .cons (Field.restores_required (Codec.lawful_text _)) ?_
  refine .cons (Field.restores_required (KeyRole.lawful _)) ?_
  exact .nil

theorem IndexProjection.lawful : IndexProjection.record.codec.Lawful := by
  intro projection
  refine Record.restores (by decide) ?_
  refine .cons (Field.restores_optional (IndexContents.lawful.option _) rfl) ?_
  refine .cons (Field.restores_collection (Codec.lawful_text.list _) id rfl) ?_
  exact .nil

/-- An index is restored whatever its record is called. -/
theorem SecondaryIndex.lawful (name : String) : (SecondaryIndex.record name).codec.Lawful := by
  intro index
  have distinct : ((SecondaryIndex.record name).fields.map Field.name).Nodup := by
    show ["IndexName", "KeySchema", "Projection"].Nodup
    decide
  refine Record.restores distinct ?_
  refine .cons (Field.restores_required (Codec.lawful_text _)) ?_
  refine .cons (Field.restores_required (KeyAttribute.lawful.list _)) ?_
  refine .cons (Field.restores_defaulted (IndexProjection.lawful _)) ?_
  exact .nil

theorem TableSchema.lawful : TableSchema.record.codec.Lawful := by
  intro schema
  refine Record.restores (by decide) ?_
  refine .cons (Field.restores_required (Codec.lawful_text _)) ?_
  refine .cons (Field.restores_required (KeyAttribute.lawful.list _)) ?_
  refine .cons (Field.restores_collection ((SecondaryIndex.lawful _).list _) id rfl) ?_
  refine .cons (Field.restores_collection ((SecondaryIndex.lawful _).list _) id rfl) ?_
  exact .nil

/-! ### All of them -/

/-- **Requests, bindings and schemas are read back from what they are written as**, from the
document and from its text, with the entries of every map written in any order. Of bindings a map
that is absent and one that is empty are told apart. -/
theorem requests_and_schemas_roundTrip :
    (∀ (r : GetRequest) (key : Item) (names : Entries String),
      key.Lists r.key → names.Lists r.names →
        GetRequest.record.codec.RoundTrips { r with key, names } r) ∧
    (∀ (r : PutRequest) (item : Item) (names : Entries String) (values : Item),
      item.Lists r.item → names.Lists r.names → values.Lists r.values →
        PutRequest.record.codec.RoundTrips { r with item, names, values } r) ∧
    (∀ (r : UpdateRequest) (key : Item) (names : Entries String) (values : Item),
      key.Lists r.key → names.Lists r.names → values.Lists r.values →
        UpdateRequest.record.codec.RoundTrips { r with key, names, values } r) ∧
    (∀ (r : DeleteRequest) (key : Item) (names : Entries String) (values : Item),
      key.Lists r.key → names.Lists r.names → values.Lists r.values →
        DeleteRequest.record.codec.RoundTrips { r with key, names, values } r) ∧
    (∀ (r : QueryRequest) (names : Entries String) (values : Item),
      names.Lists r.names → values.Lists r.values →
        QueryRequest.record.codec.RoundTrips { r with names, values } r) ∧
    (∀ (r : ScanRequest) (names : Entries String) (values : Item),
      names.Lists r.names → values.Lists r.values →
        ScanRequest.record.codec.RoundTrips { r with names, values } r) ∧
    (∀ written b : Bindings,
      Option.Rel Entries.Lists written.names b.names →
      Option.Rel Item.Lists written.values b.values →
        Bindings.record.codec.RoundTrips written b ∧
        Bindings.record.codec.TellsApart
          { written with names := none } { written with names := some [] } ∧
        Bindings.record.codec.TellsApart
          { written with values := none } { written with values := some [] }) ∧
    (∀ entry : KeyAttribute, KeyAttribute.record.codec.RoundTrips entry entry) ∧
    (∀ projection : IndexProjection,
      IndexProjection.record.codec.RoundTrips projection projection) ∧
    (∀ index : SecondaryIndex,
      SecondaryIndex.globalRecord.codec.RoundTrips index index ∧
      SecondaryIndex.localRecord.codec.RoundTrips index index) ∧
    ∀ schema : TableSchema, TableSchema.record.codec.RoundTrips schema schema := by
  refine ⟨?get, ?put, ?update, ?delete, ?query, ?scan, ?bindings, ?keyAttribute, ?projection,
    ?index, ?schema⟩
  case get => exact fun _ _ _ key names => (GetRequest.restores key names).roundTrips
  case put =>
    exact fun _ _ _ _ item names values => (PutRequest.restores item names values).roundTrips
  case update =>
    exact fun _ _ _ _ key names values => (UpdateRequest.restores key names values).roundTrips
  case delete =>
    exact fun _ _ _ _ key names values => (DeleteRequest.restores key names values).roundTrips
  case query => exact fun _ _ _ names values => (QueryRequest.restores names values).roundTrips
  case scan => exact fun _ _ _ names values => (ScanRequest.restores names values).roundTrips
  case bindings =>
    intro written b names values
    have noNames : Option.Rel Entries.Lists (some []) (some ([] : Entries String)) :=
      .some Entries.sorted_nil.lists
    have noValues : Option.Rel Item.Lists (some []) (some []) :=
      .some (Item.lists_of_ordered ⟨Entries.sorted_nil, trivial⟩)
    refine ⟨(Bindings.restores names values).roundTrips, ?_, ?_⟩
    · have absent : Bindings.record.codec.Restores { written with names := none }
          { b with names := none } := Bindings.restores .none values
      have empty : Bindings.record.codec.Restores { written with names := some [] }
          { b with names := some [] } := Bindings.restores noNames values
      exact absent.roundTrips.tellsApart empty.roundTrips nofun
    · have absent : Bindings.record.codec.Restores { written with values := none }
          { b with values := none } := Bindings.restores names .none
      have empty : Bindings.record.codec.Restores { written with values := some [] }
          { b with values := some [] } := Bindings.restores names noValues
      exact absent.roundTrips.tellsApart empty.roundTrips nofun
  case keyAttribute => exact fun _ => (KeyAttribute.lawful _).roundTrips
  case projection => exact fun _ => (IndexProjection.lawful _).roundTrips
  case index =>
    exact fun _ => ⟨(SecondaryIndex.lawful _ _).roundTrips, (SecondaryIndex.lawful _ _).roundTrips⟩
  case schema => exact fun _ => (TableSchema.lawful _).roundTrips

/-- A request with the entries of its maps out of order, of which nothing absent or empty is
written, and bindings without a map and with an empty one. -/
theorem requests_and_schemas_roundTrip_sparse :
    ∃ (r : PutRequest) (item : Item) (names : Entries String) (document : Json),
      r = { table := "t", names := [("#a", "m"), ("#b", "id")],
            item := [("id", .string "x"),
              ("m", .map [("p", .boolean false), ("q", .null true)])] } ∧
      item = [("m", .map [("q", .null true), ("p", .boolean false)]), ("id", .string "x")] ∧
      names = [("#b", "id"), ("#a", "m")] ∧
      document = .object
        [("TableName", .string "t"),
          ("Item", .object
            [("m", .object [("M", .object
              [("q", .object [("NULL", .bool true)]), ("p", .object [("BOOL", .bool false)])])]),
              ("id", .object [("S", .string "x")])]),
          ("ExpressionAttributeNames", .object [("#b", .string "id"), ("#a", .string "m")])] ∧
      PutRequest.record.codec.encode { r with item, names } = document ∧
      PutRequest.record.codec.ofDocument document = .ok r ∧
      PutRequest.record.codec.ofText document.print = .ok r ∧
      Bindings.record.codec.ofText "\x7b\x7d" = .ok {} ∧
      Bindings.record.codec.ofText "\x7b\"ExpressionAttributeNames\":\x7b\x7d\x7d" =
        .ok { names := some [] } ∧
      Bindings.record.codec.TellsApart {} { names := some [] } := by
  refine ⟨_, _, _, _, rfl, rfl, rfl, rfl, rfl, ?_⟩
  have itemListed : Item.Lists
      [("m", .map [("q", .null true), ("p", .boolean false)]), ("id", .string "x")]
      [("id", .string "x"), ("m", .map [("p", .boolean false), ("q", .null true)])] := by
    refine ⟨?_, rfl⟩
    simp [AttributeValue.Keyed, AttributeValue.KeyedEntries, Entries.keys]
  have namesListed : Entries.Lists [("#b", "id"), ("#a", "m")] [("#a", "m"), ("#b", "id")] := by
    refine ⟨?_, List.Perm.swap _ _ _⟩
    simp only [Entries.Sorted]
    decide
  have valuesListed : Item.Lists [] [] := Item.lists_of_ordered ⟨Entries.sorted_nil, trivial⟩
  obtain ⟨-, put, -, -, -, -, bindings, -⟩ := requests_and_schemas_roundTrip
  have trip := put ⟨"t", _, none, _, [], none⟩ _ _ _ itemListed namesListed valuesListed
  obtain ⟨absent, apart, -⟩ := bindings {} {} .none .none
  obtain ⟨empty, -, -⟩ := bindings { names := some [] } { names := some [] }
    (.some Entries.sorted_nil.lists) .none
  exact ⟨trip.document, trip.text, absent.text, empty.text, apart⟩

end ItemExpr
