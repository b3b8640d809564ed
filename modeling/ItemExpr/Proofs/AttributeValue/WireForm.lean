import ItemExpr.AttributeValue.Wire
import ItemExpr.Proofs.AttributeValue.Contents
import ItemExpr.Proofs.Json.Settled
import ItemExpr.Proofs.Wire.Base64
import ItemExpr.Proofs.Wire.Codec

/-! # The format of attribute values

What documents are wire forms, said by a grammar without any reader (`WireForm`). The reader takes
these and no others, and gives a value whose own wire form is the document with the members of its
maps settled; and a value that is written is read back (`codec_exact`).

All is shown of wire forms and of payloads at once: the payload of a wire form is a part of it, and
the items of a list and the members of a map are wire forms again. -/

namespace ItemExpr.AttributeValue

open Wire

/-! ### The grammar -/

mutual

/-- Whether a document is a **wire form**: an object whose only member is named for a type and has
a payload of that type. -/
inductive WireForm : Json → Prop where
  /-- A payload under the code of its type. -/
  | value {type : AttributeType} {payload : Json} (fits : Payload type payload) :
    WireForm (.object [(type.code, payload)])

/-- Whether a document is a **payload** of a type. -/
inductive Payload : AttributeType → Json → Prop where
  /-- A text. -/
  | string (text : String) : Payload .string (.string text)
  /-- The text of a number. -/
  | number (text : String) : Payload .number (.string text)
  /-- A byte string in base64. -/
  | binary (bytes : Bytes) : Payload .binary (.string (Base64.encode bytes))
  /-- Texts, in any order and with repetitions. -/
  | stringSet (members : List String) : Payload .stringSet (.array (members.map .string))
  /-- Texts of numbers, in any order and with repetitions. -/
  | numberSet (members : List String) : Payload .numberSet (.array (members.map .string))
  /-- Byte strings in base64, in any order and with repetitions. -/
  | binarySet (members : List Bytes) :
    Payload .binarySet (.array (members.map fun bytes => .string (Base64.encode bytes)))
  /-- A truth value. -/
  | boolean (flag : Bool) : Payload .boolean (.bool flag)
  /-- The flag of the null value. -/
  | null (flag : Bool) : Payload .null (.bool flag)
  /-- Wire forms. -/
  | list (items : List Json) (each : ∀ item ∈ items, WireForm item) : Payload .list (.array items)
  /-- Wire forms under any names, also under one name more than once. -/
  | map (members : List (String × Json))
    (each : ∀ name value, (name, value) ∈ members → WireForm value) :
    Payload .map (.object members)

end

/-! ### What is written -/

@[simp] theorem encodeItems_eq_map (items : List AttributeValue) :
    encodeItems items = items.map encode := by
  induction items with
  | nil => rfl
  | cons item items ih => rw [encodeItems, ih, List.map_cons, encode]

@[simp] theorem encodeEntries_eq_map (entries : List (String × AttributeValue)) :
    encodeEntries entries = entries.map fun entry => (entry.1, encode entry.2) := by
  induction entries with
  | nil => rfl
  | cons entry entries ih => rw [encodeEntries, ih, List.map_cons, encode]

/-- What holds no other values is written with nothing to settle. -/
theorem settled_encodePayload {value : AttributeValue} (leaf : value.isContainer = false) :
    (encodePayload value).settled = encodePayload value := by
  cases value with
  | list | map => cases leaf
  | stringSet members => exact Json.settled_array_strings members
  | numberSet members => exact Json.settled_array_strings members
  | binarySet members =>
    have texts := Json.settled_array_strings (members.map Base64.encode)
    rw [List.map_map] at texts
    exact texts
  | _ => rfl

/-- What holds no other values is written as a payload of its type. -/
theorem payload_of_leaf {value : AttributeValue} (leaf : value.isContainer = false) :
    Payload value.type (encodePayload value) := by
  cases value with
  | list | map => cases leaf
  | _ => constructor

/-- A payload of a type whose values hold no others is what one of them is written as. -/
theorem exists_of_payload {type : AttributeType} {payload : Json} (fits : Payload type payload)
    (notList : type ≠ .list) (notMap : type ≠ .map) :
    ∃ value, value.type = type ∧ encodePayload value = payload := by
  cases fits with
  | string text => exact ⟨.string text, rfl, rfl⟩
  | number text => exact ⟨.number text, rfl, rfl⟩
  | binary bytes => exact ⟨.binary bytes, rfl, rfl⟩
  | stringSet members => exact ⟨.stringSet members, rfl, rfl⟩
  | numberSet members => exact ⟨.numberSet members, rfl, rfl⟩
  | binarySet members => exact ⟨.binarySet members, rfl, rfl⟩
  | boolean flag => exact ⟨.boolean flag, rfl, rfl⟩
  | null flag => exact ⟨.null flag, rfl, rfl⟩
  | list => exact absurd rfl notList
  | map => exact absurd rfl notMap

/-! ### What is read, one level at a time -/

theorem decodeBinary_eq_ok_iff {text : String} {bytes : Bytes} :
    decodeBinary text = .ok bytes ↔ text = Base64.encode bytes := by
  rw [← Base64.decode_eq_ok_iff, decodeBinary]
  cases Base64.decode text with
  | ok found =>
    constructor
    · rintro ⟨⟩
      rfl
    · rintro ⟨⟩
      rfl
  | error fault => exact iff_of_false nofun nofun

theorem decodeBinaries_eq_ok_iff {texts : List String} {found : List Bytes} :
    decodeBinaries texts = .ok found ↔ texts = found.map Base64.encode := by
  induction texts generalizing found with
  | nil =>
    cases found with
    | nil => exact iff_of_true rfl rfl
    | cons => exact iff_of_false nofun nofun
  | cons text texts ih =>
    rw [decodeBinaries, bind_eq_ok_iff]
    constructor
    · rintro ⟨first, known, read⟩
      obtain ⟨rest, others, same⟩ := bind_eq_ok_iff.1 read
      cases same
      rw [List.map_cons, decodeBinary_eq_ok_iff.1 known, ih.1 others]
    · intro same
      cases found with
      | nil => cases same
      | cons first rest =>
        obtain ⟨known, others⟩ := List.cons.inj same
        exact ⟨first, decodeBinary_eq_ok_iff.2 known, bind_eq_ok_iff.2 ⟨rest, ih.2 others, rfl⟩⟩

/-- The result of what is read after another may be changed before or after both. -/
theorem bind_map_eq_bind_map {ε α β γ : Type} (first : Except ε α) (next : α → Except ε β)
    (change : β → γ) :
    (first >>= fun found => (next found).map change) = (first >>= next).map change := by
  cases first <;> rfl

/-- Contents that are read from one form only, and that make the values of a type, make the one
value of the type that is written so. -/
theorem map_eq_ok_iff_of_form {α : Type} {type : AttributeType} {payload : Json}
    {value : AttributeValue} {read : Except Fault α} {form : α → Json} {make : α → AttributeValue}
    (reads : ∀ contents, read = .ok contents ↔ payload = form contents)
    (made : ∀ value, value.type = type ↔ ∃ contents, make contents = value)
    (encodes : ∀ contents, encodePayload (make contents) = form contents) :
    read.map make = .ok value ↔ value.type = type ∧ encodePayload value = payload := by
  rw [map_eq_ok_iff, made]
  constructor
  · rintro ⟨contents, known, rfl⟩
    exact ⟨⟨contents, rfl⟩, (encodes contents).trans ((reads contents).1 known).symm⟩
  · rintro ⟨⟨contents, rfl⟩, same⟩
    exact ⟨contents, (reads contents).2 (same.symm.trans (encodes contents)), rfl⟩

/-- A payload of a type whose values hold no others is **read as the one value that is written
so**. -/
theorem decodeScalar_eq_ok_iff {type : AttributeType} {payload : Json} {value : AttributeValue}
    (notList : type ≠ .list) (notMap : type ≠ .map) :
    decodeScalar type payload.draft = .ok value ↔
      value.type = type ∧ encodePayload value = payload := by
  cases type with
  | list => exact absurd rfl notList
  | map => exact absurd rfl notMap
  | string | number =>
    refine map_eq_ok_iff_of_form (fun text => Codec.text_decode_eq_ok_iff) ?_ fun text => rfl
    intro value
    cases value <;> simp [AttributeValue.type]
  | stringSet | numberSet =>
    refine map_eq_ok_iff_of_form (fun members => Codec.texts_decode_eq_ok_iff) ?_ fun members => rfl
    intro value
    cases value <;> simp [AttributeValue.type]
  | boolean | null =>
    refine map_eq_ok_iff_of_form (fun flag => Codec.boolean_decode_eq_ok_iff) ?_ fun flag => rfl
    intro value
    cases value <;> simp [AttributeValue.type]
  | binary =>
    have reads (bytes : Bytes) :
        (Codec.text.decode .document payload.draft >>= decodeBinary) = .ok bytes ↔
          payload = .string (Base64.encode bytes) := by
      simp only [bind_eq_ok_iff, Codec.text_decode_eq_ok_iff, decodeBinary_eq_ok_iff,
        exists_eq_right]
    rw [decodeScalar, bind_map_eq_bind_map]
    refine map_eq_ok_iff_of_form reads ?_ fun bytes => rfl
    intro value
    cases value <;> simp [AttributeValue.type]
  | binarySet =>
    have reads (members : List Bytes) :
        (Codec.text.list.decode .document payload.draft >>= decodeBinaries) = .ok members ↔
          payload = .array (members.map fun bytes => .string (Base64.encode bytes)) := by
      simp only [bind_eq_ok_iff, Codec.texts_decode_eq_ok_iff, decodeBinaries_eq_ok_iff,
        exists_eq_right, List.map_map]
      rfl
    rw [decodeScalar, bind_map_eq_bind_map]
    refine map_eq_ok_iff_of_form reads ?_ fun members => rfl
    intro value
    cases value <;> simp [AttributeValue.type]

/-- A payload of a type whose values hold no others is read without looking for any. -/
theorem decodePayload_eq_decodeScalar {type : AttributeType} (notList : type ≠ .list)
    (notMap : type ≠ .map) (payload : Json.Draft) :
    decodePayload type payload = decodeScalar type payload := by
  cases payload <;> simp [decodePayload, notList, notMap]

theorem decodeItems_eq (items : List Json.Draft) :
    decodeItems items = Codec.decodeItems decode items := by
  induction items with
  | nil => rfl
  | cons item items ih => rw [decodeItems, Codec.decodeItems, ih]

theorem decodeMembers_eq (members : List (Option String × Json.Draft)) :
    decodeMembers members = Codec.decodeMembers decode members := by
  induction members with
  | nil => rfl
  | cons member members ih =>
    obtain ⟨name, member⟩ := member
    cases name with
    | none => rfl
    | some name => rw [decodeMembers, Codec.decodeMembers, ih]

/-- A list is read from an array, **item by item**. -/
theorem decodePayload_list_eq_ok_iff {payload : Json} {value : AttributeValue} :
    decodePayload .list payload.draft = .ok value ↔
      ∃ items values, payload = .array items ∧ value = .list values ∧
        List.Forall₂ (fun item value => decode item.draft = .ok value) items values := by
  cases payload with
  | array items =>
    rw [Json.draft, decodePayload, if_pos rfl, bind_eq_ok_iff]
    simp only [decodeItems_eq, Codec.decodeItems_eq_ok_iff, Json.draftItems_eq_map,
      List.forall₂_map_left_iff]
    constructor
    · rintro ⟨values, each, same⟩
      cases same
      exact ⟨items, values, rfl, rfl, each⟩
    · rintro ⟨_, values, ⟨⟩, rfl, each⟩
      exact ⟨values, each, rfl⟩
  | _ =>
    refine iff_of_false nofun ?_
    rintro ⟨_, _, ⟨⟩, _⟩

/-- A map is read from an object, **member by member**; the last member of a name counts. -/
theorem decodePayload_map_eq_ok_iff {payload : Json} {value : AttributeValue} :
    decodePayload .map payload.draft = .ok value ↔
      ∃ members pairs, payload = .object members ∧ value = .map (Entries.ofList pairs) ∧
        List.Forall₂ (fun member pair => member.1 = pair.1 ∧ decode member.2.draft = .ok pair.2)
          members pairs := by
  cases payload with
  | object members =>
    rw [Json.draft, decodePayload, if_pos rfl, bind_eq_ok_iff]
    simp only [decodeMembers_eq, Codec.decodeMembers_eq_ok_iff, Json.draftMembers_eq_map,
      List.forall₂_map_left_iff, Option.some.injEq]
    constructor
    · rintro ⟨pairs, each, same⟩
      cases same
      exact ⟨members, pairs, rfl, rfl, each⟩
    · rintro ⟨_, pairs, ⟨⟩, rfl, each⟩
      exact ⟨pairs, each, rfl⟩
  | _ =>
    refine iff_of_false nofun ?_
    rintro ⟨_, _, ⟨⟩, _⟩

/-- A code is that of the type which it is looked up as. -/
theorem code_of_ofCode? {code : String} {type : AttributeType}
    (known : AttributeType.ofCode? code = some type) : type.code = code := by
  simpa using List.find?_some known

/-- A value is read from an object with **one member**, to which the type of the value gives its
name. -/
theorem decode_eq_ok_iff {document : Json} {value : AttributeValue} :
    decode document.draft = .ok value ↔
      ∃ type payload, document = .object [(type.code, payload)] ∧
        decodePayload type payload.draft = .ok value := by
  constructor
  · intro reads
    match document, reads with
    | .object ((code, payload) :: members), reads =>
      rw [Json.draft, Json.draftMembers, decode] at reads
      split at reads
      · cases reads
      · next type known =>
        obtain ⟨found, read, only⟩ := bind_eq_ok_iff.1 reads
        cases members with
        | nil =>
          cases only
          exact ⟨type, payload, by rw [code_of_ofCode? known], read⟩
        | cons => cases only
  · rintro ⟨type, payload, rfl, read⟩
    rw [Json.draft, Json.draftMembers, Json.draftMembers, decode, AttributeType.ofCode?_code]
    exact bind_eq_ok_iff.2 ⟨value, read, rfl⟩

/-! ### Writing and reading -/

/-- What is written is **read back**, the entries of its maps in order. -/
theorem decodePayload_encodePayload {value : AttributeValue} (keyed : value.Keyed) :
    decodePayload value.type (encodePayload value).draft = .ok value.arranged := by
  induction value using induction with
  | leaf value leaf =>
    have notList : value.type ≠ .list := by
      cases value <;> simp [AttributeValue.type, isContainer] at leaf ⊢
    have notMap : value.type ≠ .map := by
      cases value <;> simp [AttributeValue.type, isContainer] at leaf ⊢
    have arranged : value.arranged = value := by
      cases value with
      | list | map => cases leaf
      | _ => rfl
    rw [decodePayload_eq_decodeScalar notList notMap, decodeScalar_eq_ok_iff notList notMap,
      arranged]
    exact ⟨rfl, rfl⟩
  | list items ih =>
    rw [Keyed, keyedItems_iff] at keyed
    refine decodePayload_list_eq_ok_iff.2 ⟨_, _, rfl, rfl, ?_⟩
    rw [encodeItems_eq_map, arrangedItems_eq_map, List.forall₂_map_left_iff,
      List.forall₂_map_right_iff, List.forall₂_same]
    intro item mem
    exact decode_eq_ok_iff.2 ⟨item.type, _, rfl, ih item mem (keyed item mem)⟩
  | map entries ih =>
    rw [Keyed, keyedEntries_iff] at keyed
    refine decodePayload_map_eq_ok_iff.2 ⟨_, _, rfl, rfl, ?_⟩
    rw [encodeEntries_eq_map, arrangedEntries_eq_map, List.forall₂_map_left_iff,
      List.forall₂_map_right_iff, List.forall₂_same]
    rintro ⟨key, value⟩ mem
    have read := ih key value mem (keyed.2 key value mem)
    exact ⟨rfl, decode_eq_ok_iff.2 ⟨value.type, _, rfl, read⟩⟩

/-- The wire form of a value is read as the value, the entries of its maps in order. -/
theorem decode_encode {value : AttributeValue} (keyed : value.Keyed) :
    decode (encode value).draft = .ok value.arranged :=
  decode_eq_ok_iff.2 ⟨value.type, _, rfl, decodePayload_encodePayload keyed⟩

/-- Values in order are written differently. -/
theorem encode_injective {a b : AttributeValue} (ordered : a.Ordered) (ordered' : b.Ordered)
    (same : encode a = encode b) : a = b := by
  have read := decode_encode ordered.keyed
  have read' := decode_encode ordered'.keyed
  rw [same, read', ordered.arranged_eq, ordered'.arranged_eq] at read
  exact (Except.ok.inj read).symm

/-! ### Reading and writing -/

/-- What a document says of the value that is read from it: the document is **of the grammar**, and
the value is written as what settles it. -/
def Faithful (document : Json) : Prop :=
  ∀ value, decode document.draft = .ok value →
    WireForm document ∧ value.Ordered ∧ encode value = document.settled

/-- What a payload says of the value that is read from it as one of a type. -/
def FaithfulPayload (payload : Json) : Prop :=
  ∀ type value, decodePayload type payload.draft = .ok value →
    Payload type payload ∧ value.type = type ∧ value.Ordered ∧
      encodePayload value = payload.settled

/-- A document is faithful if the payload in it is. -/
theorem faithful_of_payload {document : Json}
    (each : ∀ name payload, document = .object [(name, payload)] → FaithfulPayload payload) :
    Faithful document := by
  intro value reads
  obtain ⟨type, payload, rfl, read⟩ := decode_eq_ok_iff.1 reads
  obtain ⟨fits, rfl, ordered, same⟩ := each _ payload rfl type value read
  refine ⟨.value fits, ordered, ?_⟩
  rw [encode, same, Json.settled_object_singleton]

/-- What each pair of two lists says of its sides, said of each list and of what the lists are
changed to. -/
theorem parts_of_forall₂ {α β γ : Type} {holds : α → Prop} {holds' : β → Prop} {change : α → γ}
    {change' : β → γ} {as : List α} {bs : List β}
    (each : List.Forall₂ (fun a b => holds a ∧ holds' b ∧ change' b = change a) as bs) :
    (∀ a ∈ as, holds a) ∧ (∀ b ∈ bs, holds' b) ∧ bs.map change' = as.map change := by
  obtain ⟨first, rest⟩ := (List.forall₂_and_left _ _).1 each
  obtain ⟨second, same⟩ := (List.forall₂_and_left _ _).1 rest.flip
  refine ⟨first, second, ?_⟩
  rw [← List.forall₂_eq_eq_eq, List.forall₂_map_left_iff, List.forall₂_map_right_iff]
  exact same

/-- A list is read from a payload of faithful documents as what it is written as. -/
theorem faithful_list {items : List Json} (faithful : ∀ item ∈ items, Faithful item)
    {values : List AttributeValue}
    (each : List.Forall₂ (fun item value => decode item.draft = .ok value) items values) :
    Payload .list (.array items) ∧ Ordered (.list values) ∧
      encodePayload (.list values) = Json.settled (.array items) := by
  have both := (List.forall₂_and_left _ _).2 ⟨faithful, each⟩
  obtain ⟨forms, ordered, same⟩ :=
    parts_of_forall₂ (both.imp fun _ value both => both.1 value both.2)
  refine ⟨.list items forms, ?_, ?_⟩
  · rw [Ordered, orderedItems_iff]
    exact ordered
  · rw [encodePayload, encodeItems_eq_map, Json.settled, Json.settledItems_eq_map, same]

/-- A map is read from a payload of faithful documents as what it is written as. -/
theorem faithful_map {members : List (String × Json)}
    (faithful : ∀ name value, (name, value) ∈ members → Faithful value)
    {pairs : List (String × AttributeValue)}
    (each : List.Forall₂ (fun member pair => member.1 = pair.1 ∧
      decode member.2.draft = .ok pair.2) members pairs) :
    Payload .map (.object members) ∧ Ordered (.map (Entries.ofList pairs)) ∧
      encodePayload (.map (Entries.ofList pairs)) = Json.settled (.object members) := by
  have parts : ∀ member ∈ members, Faithful member.2 := fun member mem =>
    faithful member.1 member.2 mem
  have written : List.Forall₂
      (fun member pair => WireForm member.2 ∧ pair.2.Ordered ∧
        (pair.1, encode pair.2) = (member.1, member.2.settled)) members pairs := by
    refine ((List.forall₂_and_left _ _).2 ⟨parts, each⟩).imp fun member pair both => ?_
    obtain ⟨form, ordered, same⟩ := both.1 pair.2 both.2.2
    exact ⟨form, ordered, Prod.ext both.2.1.symm same⟩
  obtain ⟨forms, ordered, same⟩ := parts_of_forall₂ written
  refine ⟨.map members fun name value mem => forms (name, value) mem, ?_, ?_⟩
  · rw [Ordered, orderedEntries_iff]
    -- What an entry has is what one of the pairs has.
    exact ⟨Entries.sorted_ofList pairs, fun key value mem =>
      ordered (key, value) (Entries.mem_of_mem_ofList mem)⟩
  · rw [encodePayload, encodeEntries_eq_map, Json.settled, Json.settledMembers_eq_map, ← same,
      Entries.ofList_map]

/-- What holds no other values is read as what it is written as. -/
theorem faithful_leaf {value : AttributeValue} (leaf : value.isContainer = false) :
    Payload value.type (encodePayload value) ∧ value.Ordered ∧
      encodePayload value = (encodePayload value).settled := by
  refine ⟨payload_of_leaf leaf, ?_, (settled_encodePayload leaf).symm⟩
  cases value with
  | list | map => cases leaf
  | _ => trivial

/-- A payload is faithful if the documents in it are. -/
theorem faithfulPayload_of_parts {payload : Json}
    (items : ∀ items, payload = .array items → ∀ item ∈ items, Faithful item)
    (members : ∀ members, payload = .object members →
      ∀ name value, (name, value) ∈ members → Faithful value) :
    FaithfulPayload payload := by
  intro type value reads
  by_cases isList : type = .list
  · subst isList
    obtain ⟨documents, values, rfl, rfl, each⟩ := decodePayload_list_eq_ok_iff.1 reads
    obtain ⟨fits, written⟩ := faithful_list (items documents rfl) each
    exact ⟨fits, rfl, written⟩
  by_cases isMap : type = .map
  · subst isMap
    obtain ⟨documents, pairs, rfl, rfl, each⟩ := decodePayload_map_eq_ok_iff.1 reads
    obtain ⟨fits, written⟩ := faithful_map (members documents rfl) each
    exact ⟨fits, rfl, written⟩
  rw [decodePayload_eq_decodeScalar isList isMap, decodeScalar_eq_ok_iff isList isMap] at reads
  obtain ⟨rfl, rfl⟩ := reads
  have leaf : value.isContainer = false := by
    cases value <;> simp [AttributeValue.type, isContainer] at isList isMap ⊢
  obtain ⟨fits, written⟩ := faithful_leaf leaf
  exact ⟨fits, rfl, written⟩

/-- **Every document is faithful**, and so is every payload. -/
theorem faithful (document : Json) : Faithful document ∧ FaithfulPayload document := by
  induction document using Json.induction with
  | null | bool | number | string =>
    exact ⟨faithful_of_payload nofun, faithfulPayload_of_parts nofun nofun⟩
  | array items ih =>
    refine ⟨faithful_of_payload nofun, faithfulPayload_of_parts ?_ nofun⟩
    rintro _ ⟨⟩ item mem
    exact (ih item mem).1
  | object members ih =>
    refine ⟨faithful_of_payload ?_, faithfulPayload_of_parts nofun ?_⟩
    · rintro name payload ⟨⟩
      exact (ih name payload List.mem_cons_self).2
    · rintro _ ⟨⟩ name value mem
      exact (ih name value mem).1

/-! ### The grammar is what is read -/

/-- Things that are each related to something are all related to a list of these. -/
theorem exists_forall₂ {α β : Type} {related : α → β → Prop} {as : List α}
    (each : ∀ a ∈ as, ∃ b, related a b) : ∃ bs, List.Forall₂ related as bs := by
  induction as with
  | nil => exact ⟨[], .nil⟩
  | cons a as ih =>
    obtain ⟨b, first⟩ := each a List.mem_cons_self
    obtain ⟨bs, rest⟩ := ih fun a mem => each a (List.mem_cons_of_mem _ mem)
    exact ⟨b :: bs, .cons first rest⟩

/-- A payload of a type whose values hold no others is read. -/
theorem exists_decodePayload_of_leaf {type : AttributeType} {payload : Json}
    (fits : Payload type payload) (notList : type ≠ .list) (notMap : type ≠ .map) :
    ∃ value, decodePayload type payload.draft = .ok value := by
  obtain ⟨value, typed, written⟩ := exists_of_payload fits notList notMap
  rw [decodePayload_eq_decodeScalar notList notMap]
  exact ⟨value, (decodeScalar_eq_ok_iff notList notMap).2 ⟨typed, written⟩⟩

mutual

/-- A wire form is read. -/
theorem WireForm.exists_decode {document : Json} (form : WireForm document) :
    ∃ value, decode document.draft = .ok value := by
  cases form with
  | value fits =>
    obtain ⟨value, read⟩ := fits.exists_decodePayload
    exact ⟨value, decode_eq_ok_iff.2 ⟨_, _, rfl, read⟩⟩
termination_by sizeOf document

/-- A payload is read. -/
theorem Payload.exists_decodePayload {type : AttributeType} {payload : Json}
    (fits : Payload type payload) : ∃ value, decodePayload type payload.draft = .ok value := by
  cases fits with
  | list items each =>
    obtain ⟨values, read⟩ := exists_forall₂ fun item mem => (each item mem).exists_decode
    exact ⟨.list values, decodePayload_list_eq_ok_iff.2 ⟨items, values, rfl, rfl, read⟩⟩
  | map members each =>
    have named : ∀ member ∈ members, ∃ pair : String × AttributeValue,
        member.1 = pair.1 ∧ decode member.2.draft = .ok pair.2 := by
      intro member mem
      obtain ⟨value, read⟩ := (each member.1 member.2 mem).exists_decode
      exact ⟨(member.1, value), rfl, read⟩
    obtain ⟨pairs, read⟩ := exists_forall₂ named
    exact ⟨.map (Entries.ofList pairs),
      decodePayload_map_eq_ok_iff.2 ⟨members, pairs, rfl, rfl, read⟩⟩
  | string text => exact exists_decodePayload_of_leaf (.string text) nofun nofun
  | number text => exact exists_decodePayload_of_leaf (.number text) nofun nofun
  | binary bytes => exact exists_decodePayload_of_leaf (.binary bytes) nofun nofun
  | stringSet members => exact exists_decodePayload_of_leaf (.stringSet members) nofun nofun
  | numberSet members => exact exists_decodePayload_of_leaf (.numberSet members) nofun nofun
  | binarySet members => exact exists_decodePayload_of_leaf (.binarySet members) nofun nofun
  | boolean flag => exact exists_decodePayload_of_leaf (.boolean flag) nofun nofun
  | null flag => exact exists_decodePayload_of_leaf (.null flag) nofun nofun
termination_by sizeOf payload
decreasing_by
  · have smaller := List.sizeOf_lt_of_mem mem
    simp only [Json.array.sizeOf_spec]
    omega
  · have smaller := List.sizeOf_lt_of_mem mem
    cases member
    simp only [Json.object.sizeOf_spec, Prod.mk.sizeOf_spec] at smaller ⊢
    omega

end

/-- **The codec is a bijection onto its format.** A value is read back from what it is written as.
A value is read from a document exactly if the document is a wire form and the value is written as
the document with the members of its objects settled, of which only those of maps can be more than
one. What is no wire form is not read at all. -/
theorem codec_exact (value : AttributeValue) (document : Json) :
    (value.Ordered → codec.ofDocument (codec.encode value) = .ok value) ∧
    (value.Keyed → codec.ofDocument (codec.encode value) = .ok value.arranged) ∧
    (codec.ofDocument document = .ok value ↔
      WireForm document ∧ value.Ordered ∧ codec.encode value = document.settled) ∧
    ((∃ read, codec.ofDocument document = .ok read) ↔ WireForm document) := by
  refine ⟨fun ordered => ?_, decode_encode, ⟨?sound, ?complete⟩, ⟨?_, WireForm.exists_decode⟩⟩
  · have read := decode_encode ordered.keyed
    rw [ordered.arranged_eq] at read
    exact read
  case sound => exact (faithful document).1 value
  case complete =>
    rintro ⟨form, ordered, written⟩
    obtain ⟨read, reads⟩ := form.exists_decode
    obtain ⟨-, ordered', written'⟩ := (faithful document).1 read reads
    -- Both are written as the settled document.
    rw [encode_injective ordered ordered' (written.trans written'.symm)]
    exact reads
  · rintro ⟨read, reads⟩
    exact ((faithful document).1 read reads).1

/-- A map with its members in another order and one of them given twice, and the same value with
the entries of its map in another order. -/
theorem codec_exact_nested :
    ∃ (bytes document : Json) (value reversed : AttributeValue),
      bytes = .object [("B", .string "AQ==")] ∧
      document = .object [("M", .object
        [("b", bytes), ("a", .object [("S", .string "old")]),
          ("a", .object [("L", .array [bytes])])])] ∧
      value = .map [("a", .list [.binary [1]]), ("b", .binary [1])] ∧
      reversed = .map [("b", .binary [1]), ("a", .list [.binary [1]])] ∧
      value.Ordered ∧ reversed.Keyed ∧ WireForm document ∧
      codec.ofDocument document = .ok value ∧
      codec.ofDocument (codec.encode value) = .ok value ∧
      codec.ofDocument (codec.encode reversed) = .ok value := by
  refine ⟨.object [("B", .string "AQ==")], _, _, _, rfl, rfl, rfl, rfl, ?_⟩
  have ordered : Ordered (.map [("a", .list [.binary [1]]), ("b", .binary [1])]) := by
    simp only [Ordered, OrderedEntries, OrderedItems, Entries.Sorted, and_true]
    decide
  have keyed : Keyed (.map [("b", .binary [1]), ("a", .list [.binary [1]])]) := by
    simp [Keyed, KeyedEntries, KeyedItems, Entries.keys]
  have text : Base64.encode [1] = "AQ==" := by decide +kernel
  have bytes : WireForm (.object [("B", .string "AQ==")]) := text ▸ .value (.binary [1])
  have list : WireForm (.object [("L", .array [.object [("B", .string "AQ==")]])]) := by
    refine .value (.list _ ?_)
    rintro _ (_ | ⟨_, ⟨⟩⟩)
    exact bytes
  have form : WireForm (.object [("M", .object [("b", .object [("B", .string "AQ==")]),
      ("a", .object [("S", .string "old")]),
      ("a", .object [("L", .array [.object [("B", .string "AQ==")]])])])]) := by
    refine .value (.map _ ?_)
    rintro _ _ (_ | ⟨_, _ | ⟨_, _ | ⟨_, ⟨⟩⟩⟩⟩)
    exacts [bytes, .value (.string "old"), list]
  have written : encode (.map [("a", .list [.binary [1]]), ("b", .binary [1])]) =
      .object [("M", .object [("a", .object [("L", .array [.object [("B", .string "AQ==")]])]),
        ("b", .object [("B", .string "AQ==")])])] := by
    simp [encode, encodePayload, encodeBinary, text, AttributeValue.type, AttributeType.code]
  refine ⟨ordered, keyed, form, ?_, ?_, ?_⟩
  · exact (codec_exact _ _).2.2.1.2 ⟨form, ordered, written.trans rfl⟩
  · exact (codec_exact _ .null).1 ordered
  · exact ((codec_exact _ .null).2.1 keyed).trans rfl

end ItemExpr.AttributeValue
