import ItemExpr.Proofs.AttributeValue.WireForm
import ItemExpr.Proofs.Json.Printed
import ItemExpr.Wire.Record

/-! # What is written is read back

A codec restores a value if it reads it back from the document that the value is written as, also
from the text of that document (`Codec.Restores.roundTrips`). A value may be written with the
entries of its maps in any order, so the value that is written and the one that is read are told
apart.

A record is restored if each of its fields is (`Record.restores`): a field that is written is read
as its value, and a field that is left out has that value in the blank record already, which is
what the rule of its omission and the rule of its default have to agree on. -/

namespace ItemExpr.Wire

open Json (Draft)

variable {α ρ : Type}

/-! ### Codecs -/

namespace Codec

/-- Whether a codec **reads a value back** from what another is written as, wherever the draft
comes from. -/
structure Restores (codec : Codec α) (written value : α) : Prop where
  /-- The value is read. -/
  reads (origin : Origin) : codec.decode origin (codec.encode written).draft = .ok value
  /-- The document can be printed without loss. -/
  integral : (codec.encode written).Integral
  /-- The document is not what stands for an absent value. -/
  present : codec.encode written ≠ .null

/-- Whether a value is read back from what another is written as, from the **document** and from
its **text**. -/
structure RoundTrips (codec : Codec α) (written value : α) : Prop where
  /-- The document is read as the value. -/
  document : codec.ofDocument (codec.encode written) = .ok value
  /-- The text of the document is read as the value. -/
  text : codec.ofText (codec.encode written).print = .ok value

/-- Whether two values are **told apart** on the wire: by what they are written as, and by what is
read from it. -/
structure TellsApart (codec : Codec α) (first second : α) : Prop where
  /-- The documents differ. -/
  documents : codec.encode first ≠ codec.encode second
  /-- Their texts differ. -/
  texts : (codec.encode first).print ≠ (codec.encode second).print
  /-- What is read from the documents differs. -/
  values : codec.ofDocument (codec.encode first) ≠ codec.ofDocument (codec.encode second)

theorem Restores.roundTrips {codec : Codec α} {written value : α}
    (restores : codec.Restores written value) : codec.RoundTrips written value where
  document := restores.reads .document
  text := by
    rw [ofText, Json.read_print restores.integral]
    exact bind_eq_ok_iff.2 ⟨value, restores.reads .text, rfl⟩

/-- What is read may be changed. -/
theorem Restores.map_reads {β : Type} {codec : Codec α} {written value : α}
    (restores : codec.Restores written value) (origin : Origin) (change : α → β) :
    (codec.decode origin (codec.encode written).draft).map change = .ok (change value) := by
  rw [restores.reads]
  rfl

/-- What is read back as different values is told apart. -/
theorem RoundTrips.tellsApart {codec : Codec α} {first second value value' : α}
    (trip : codec.RoundTrips first value) (trip' : codec.RoundTrips second value')
    (differ : value ≠ value') : codec.TellsApart first second where
  documents same := by
    have read := trip.document
    rw [same, trip'.document] at read
    exact differ (Except.ok.inj read).symm
  texts same := by
    have read := trip.text
    rw [same, trip'.text] at read
    exact differ (Except.ok.inj read).symm
  values same := by
    rw [trip.document, trip'.document] at same
    exact differ (Except.ok.inj same)

/-- Whether a codec restores every value as it was written. -/
def Lawful (codec : Codec α) : Prop := ∀ value, codec.Restores value value

theorem lawful_text : text.Lawful := fun found => ⟨fun _ => rfl, .string found, nofun⟩

theorem lawful_boolean : boolean.Lawful := fun flag => ⟨fun _ => rfl, .bool flag, nofun⟩

theorem lawful_int32 : int32.Lawful := by
  intro n
  have low : -2147483648 ≤ n.toInt := Int32.le_toInt n
  have high : n.toInt < 2147483648 := Int32.toInt_lt n
  refine ⟨fun origin => ?_, ?_, nofun⟩
  · show (if -2147483648 ≤ n.toInt ∧ n.toInt < 2147483648 then Except.ok (Int32.ofInt n.toInt)
      else _) = _
    rw [if_pos ⟨low, high⟩, Int32.ofInt_toInt]
  · have bound : (Number.twoPow 63 : Int) = 9223372036854775808 := by decide
    have bound' : (Number.wordBound : Int) = 18446744073709551616 := by decide
    exact .number (by omega) (by omega)

/-- Choices are restored if the name of each finds it. -/
theorem lawful_choice {name : α → String} {all : List α}
    (found : ∀ chosen, findChoice name all (name chosen) = .ok chosen) :
    (choice name all).Lawful :=
  fun chosen => ⟨fun _ => found chosen, .string (name chosen), nofun⟩

/-- What is written is absent exactly if the value is, and restored otherwise. -/
theorem restores_option {codec : Codec α} {related : α → α → Prop}
    (restores : ∀ a b, related a b → codec.Restores a b) {written value : Option α}
    (both : Option.Rel related written value) : Option.Rel codec.Restores written value := by
  cases both with
  | none => exact .none
  | some both => exact .some (restores _ _ both)

theorem Lawful.option {codec : Codec α} (lawful : codec.Lawful) (value : Option α) :
    Option.Rel codec.Restores value value := by
  cases value with
  | none => exact .none
  | some value => exact .some (lawful value)

/-- What every pair of two lists says of its first side, said of the first list. -/
theorem forall_of_forall₂ {β γ : Type} {related : β → γ → Prop} {holds : β → Prop}
    {first : List β} {second : List γ} (implies : ∀ a b, related a b → holds a)
    (each : List.Forall₂ related first second) : ∀ a ∈ first, holds a :=
  ((List.forall₂_and_left first second).1 (each.imp fun a b both => ⟨implies a b both, both⟩)).1

/-- A list is restored **item by item**. -/
theorem restores_list {codec : Codec α} {written values : List α}
    (each : List.Forall₂ codec.Restores written values) :
    codec.list.Restores written values := by
  have integral : ∀ item ∈ written, (codec.encode item).Integral :=
    forall_of_forall₂ (fun _ _ restores => restores.integral) each
  refine ⟨fun origin => ?_, .array ?_, nofun⟩
  · show decodeItems (codec.decode origin) (Json.draftItems (written.map codec.encode)) >>=
      closed true = _
    refine bind_eq_ok_iff.2 ⟨values, decodeItems_eq_ok_iff.2 ?_, rfl⟩
    rw [Json.draftItems_eq_map, List.forall₂_map_left_iff, List.forall₂_map_left_iff]
    exact each.imp fun _ _ restores => restores.reads origin
  · intro document mem
    obtain ⟨item, listed, rfl⟩ := List.mem_map.1 mem
    exact integral item listed

theorem Lawful.list {codec : Codec α} (lawful : codec.Lawful) : codec.list.Lawful :=
  fun _ => restores_list (List.forall₂_same.2 fun value _ => lawful value)

/-- The map of some pairs is restored from others under the same keys **pair by pair**. -/
theorem restores_entries {codec : Codec α} {written pairs : List (String × α)}
    (each : List.Forall₂ (fun entry pair => entry.1 = pair.1 ∧ codec.Restores entry.2 pair.2)
      written pairs) :
    codec.entries.Restores written (Entries.ofList pairs) := by
  have integral : ∀ entry ∈ written, (codec.encode entry.2).Integral :=
    forall_of_forall₂ (fun _ _ both => both.2.integral) each
  refine ⟨fun origin => ?_, .object ?_, nofun⟩
  · show (do
      let pairs ← decodeMembers (codec.decode origin) (Json.draftMembers
        (written.map fun entry : String × α => (entry.1, codec.encode entry.2)))
      closed true (Entries.ofList pairs)) = _
    refine bind_eq_ok_iff.2 ⟨pairs, decodeMembers_eq_ok_iff.2 ?_, rfl⟩
    rw [Json.draftMembers_eq_map, List.forall₂_map_left_iff, List.forall₂_map_left_iff]
    exact each.imp fun _ _ both => ⟨congrArg some both.1, both.2.reads origin⟩
  · intro member mem
    obtain ⟨entry, listed, rfl⟩ := List.mem_map.1 mem
    exact integral entry listed

/-- A map is restored from its entries **in any order**. -/
theorem Lawful.restores_entries {codec : Codec α} (lawful : codec.Lawful)
    {listing map : Entries α} (lists : listing.Lists map) :
    codec.entries.Restores listing map := by
  have restored : codec.entries.Restores listing (Entries.ofList listing) :=
    Codec.restores_entries (List.forall₂_same.2 fun entry _ => ⟨rfl, lawful entry.2⟩)
  rw [lists.ofList_eq] at restored
  exact restored

end Codec

/-! ### Attribute values -/

/-- An attribute value is written without numbers of the wire. -/
theorem integral_encodePayload (value : AttributeValue) : value.encodePayload.Integral := by
  have texts (members : List String) : (Json.array (members.map .string)).Integral := by
    refine .array fun item mem => ?_
    obtain ⟨text, -, rfl⟩ := List.mem_map.1 mem
    exact .string text
  induction value using AttributeValue.induction with
  | leaf value leaf =>
    cases value with
    | list | map => cases leaf
    | string text | number text => exact .string text
    | binary bytes => exact .string (Base64.encode bytes)
    | stringSet members | numberSet members => exact texts members
    | binarySet members =>
      have encoded := texts (members.map Base64.encode)
      rw [List.map_map] at encoded
      exact encoded
    | boolean flag | null flag => exact .bool flag
  | list items ih =>
    refine .array fun document mem => ?_
    rw [AttributeValue.encodeItems_eq_map] at mem
    obtain ⟨item, listed, rfl⟩ := List.mem_map.1 mem
    exact .object (List.forall_mem_singleton.2 (ih item listed))
  | map entries ih =>
    refine .object fun member mem => ?_
    rw [AttributeValue.encodeEntries_eq_map] at mem
    obtain ⟨⟨key, value⟩, listed, rfl⟩ := List.mem_map.1 mem
    exact .object (List.forall_mem_singleton.2 (ih key value listed))

/-- An attribute value is restored, the entries of its maps in order. -/
theorem restores_attributeValue {value : AttributeValue} (keyed : value.Keyed) :
    AttributeValue.codec.Restores value value.arranged :=
  ⟨fun _ => AttributeValue.decode_encode keyed,
    .object (List.forall_mem_singleton.2 (integral_encodePayload value)), nofun⟩

/-- A map of attribute values is restored, the entries of all maps in order. -/
theorem restores_attributeValues {entries : Entries AttributeValue}
    (keyed : (AttributeValue.map entries).Keyed) :
    AttributeValue.codec.entries.Restores entries
      (Entries.ofList (entries.map fun entry => (entry.1, entry.2.arranged))) := by
  rw [AttributeValue.Keyed, AttributeValue.keyedEntries_iff] at keyed
  refine Codec.restores_entries ?_
  rw [List.forall₂_map_right_iff, List.forall₂_same]
  exact fun entry mem => ⟨rfl, restores_attributeValue (keyed.2 entry.1 entry.2 mem)⟩

/-! ### Records -/

/-- What becomes of a record when a field is read **as another record writes it**. -/
inductive Field.Restores (field : Field ρ) (written before : ρ) : ρ → Prop
  /-- A field that is left out changes nothing, but may not be required. -/
  | absent (unwritten : field.write written = none) (spare : field.presence ≠ .required) :
    field.Restores written before before
  /-- A field that is written is read. -/
  | present {document : Json} {after : ρ} (writes : field.write written = some document)
    (integral : document.Integral)
    (reads : ∀ origin, field.read origin document.draft before = .ok after) :
    field.Restores written before after

/-- What becomes of a record when **fields are read one by one** as another record writes them. -/
inductive Field.RestoresAll (written : ρ) : List (Field ρ) → ρ → ρ → Prop
  /-- Without fields nothing changes. -/
  | nil {record : ρ} : RestoresAll written [] record record
  /-- A field, and those behind it. -/
  | cons {field : Field ρ} {fields : List (Field ρ)} {before between after : ρ}
    (first : field.Restores written before between)
    (rest : RestoresAll written fields between after) :
    RestoresAll written (field :: fields) before after

namespace Field

variable {name : String} {written before : ρ}

section

variable {codec : Codec α} {get : ρ → α} {set : α → ρ → ρ} {value : α}

theorem restores_required (restores : codec.Restores (get written) value) :
    (Field.required name codec get set).Restores written before (set value before) :=
  .present rfl restores.integral fun origin => restores.map_reads origin (set · before)

theorem restores_defaulted (restores : codec.Restores (get written) value) :
    (Field.defaulted name codec get set).Restores written before (set value before) :=
  .present rfl restores.integral fun origin => restores.map_reads origin (set · before)

end

/-- A field that may be absent is restored if its value is, or if there is none and the record has
none yet. -/
theorem restores_optional {codec : Codec α} {get : ρ → Option α} {set : Option α → ρ → ρ}
    {value : Option α} (restores : Option.Rel codec.Restores (get written) value)
    (blank : set none before = before) :
    (Field.optional name codec get set).Restores written before (set value before) := by
  generalize known : get written = found at restores
  cases restores with
  | none =>
    have unwritten : (Field.optional name codec get set).write written = none := by
      simp [Field.optional, known]
    rw [blank]
    exact .absent unwritten nofun
  | @some found value restores =>
    have writes : (Field.optional name codec get set).write written =
        some (codec.encode found) := by
      simp [Field.optional, known]
    refine .present writes restores.integral fun origin => ?_
    have read := restores.map_reads origin fun value => set (some value) before
    -- Only the document that stands for an absent value is looked at before it is read.
    cases document : codec.encode found with
    | null => exact absurd document restores.present
    | _ =>
      rw [document] at read
      exact read

/-- A list is restored if what it was written as is read as its value, or if it is empty and the
record has an empty one. -/
theorem restores_collection {codec : Codec (List α)} {get : ρ → List α} {set : List α → ρ → ρ}
    {value : List α} (restores : codec.Restores (get written) value)
    (empty : get written = [] → value = []) (blank : set [] before = before) :
    (Field.collection name codec get set).Restores written before (set value before) := by
  by_cases none : get written = []
  · have unwritten : (Field.collection name codec get set).write written = Option.none := by
      simp [Field.collection, none]
    rw [empty none, blank]
    exact .absent unwritten nofun
  · have writes : (Field.collection name codec get set).write written =
        some (codec.encode (get written)) := by
      simp [Field.collection, none]
    exact .present writes restores.integral fun origin => restores.map_reads origin (set · before)

end Field

namespace Record

/-- The members that some fields of a record are written as. -/
def members (fields : List (Field ρ)) (written : ρ) : List (String × Json) :=
  fields.filterMap fun field => (field.write written).map (field.name, ·)

/-- The members of fields are well formed. -/
theorem integral_of_mem_members {fields : List (Field ρ)} {written before after : ρ}
    (restores : Field.RestoresAll written fields before after) :
    ∀ member ∈ members fields written, member.2.Integral := by
  induction restores with
  | nil => exact nofun
  | cons first rest ih =>
    cases first with
    | absent unwritten spare => simpa [members, unwritten] using ih
    | present writes integral reads =>
      simpa [members, writes] using And.intro integral ih

/-- A field is found by its name. -/
theorem find?_of_mem {fields : List (Field ρ)} (distinct : (fields.map Field.name).Nodup)
    {field : Field ρ} (mem : field ∈ fields) :
    fields.find? (fun other => other.name = field.name) = some field := by
  have some : (fields.find? fun other => other.name = field.name).isSome = true :=
    List.find?_isSome.2 ⟨field, mem, by simp⟩
  obtain ⟨other, found⟩ := Option.isSome_iff_exists.1 some
  have same : other.name = field.name := by simpa using List.find?_some found
  rw [found, List.inj_on_of_nodup_map distinct (List.mem_of_find?_eq_some found) mem same]

/-- The members of some fields of a record are read **one field after the other**, and every
required one of them is then read. -/
theorem readMembers_members {all fields : List (Field ρ)} {written before after : ρ}
    (restores : Field.RestoresAll written fields before after)
    (known : ∀ field ∈ fields, all.find? (fun other => other.name = field.name) = some field)
    (distinct : (fields.map Field.name).Nodup) (origin : Origin) (seen : List String)
    (unseen : ∀ field ∈ fields, field.name ∉ seen) :
    ∃ seen', readMembers origin all seen before (Json.draftMembers (members fields written)) =
        .ok (seen', after) ∧
      (∀ name ∈ seen, name ∈ seen') ∧
      ∀ field ∈ fields, field.presence = .required → field.name ∈ seen' := by
  induction restores generalizing seen with
  | nil => exact ⟨seen, rfl, fun _ mem => mem, nofun⟩
  | @cons field fields before between after first rest ih =>
    rw [List.forall_mem_cons] at known unseen
    rw [List.map_cons, List.nodup_cons] at distinct
    cases first with
    | absent unwritten spare =>
      obtain ⟨seen', read, kept, all⟩ := ih known.2 distinct.2 seen unseen.2
      have same : members (field :: fields) written = members fields written := by
        simp [members, unwritten]
      rw [same]
      exact ⟨seen', read, kept, List.forall_mem_cons.2 ⟨fun must => absurd must spare, all⟩⟩
    | @present document _ writes integral reads =>
      have unseen' : ∀ other ∈ fields, other.name ∉ field.name :: seen := by
        intro other mem now
        rcases List.mem_cons.1 now with same | now
        · exact distinct.1 (same ▸ List.mem_map_of_mem mem)
        · exact unseen.2 other mem now
      obtain ⟨seen', read, kept, all⟩ := ih known.2 distinct.2 (field.name :: seen) unseen'
      have same : members (field :: fields) written =
          (field.name, document) :: members fields written := by
        simp [members, writes]
      refine ⟨seen', ?_, fun name mem => kept name (List.mem_cons_of_mem _ mem),
        List.forall_mem_cons.2 ⟨fun _ => kept _ List.mem_cons_self, all⟩⟩
      rw [same, Json.draftMembers, readMembers, known.1]
      show (if field.name ∈ seen then _ else _) = _
      rw [if_neg unseen.1]
      exact bind_eq_ok_iff.2 ⟨between, reads origin, read⟩

/-- A record of fields with different names **is restored** if its fields are, one after the other,
from the blank record on. -/
theorem restores {record : Record ρ} {written value : ρ}
    (distinct : (record.fields.map Field.name).Nodup)
    (each : Field.RestoresAll written record.fields record.blank value) :
    record.codec.Restores written value := by
  refine ⟨fun origin => ?_, .object (integral_of_mem_members each), nofun⟩
  obtain ⟨seen, read, -, all⟩ := readMembers_members each (fun _ => find?_of_mem distinct)
    distinct origin [] (fun _ _ => List.not_mem_nil)
  have complete : firstMissing? record.fields seen = none := by
    rw [firstMissing?, List.find?_eq_none]
    intro field mem
    simpa using all field mem
  refine bind_eq_ok_iff.2 ⟨(seen, value), read, ?_⟩
  dsimp only [closed_true]
  rw [complete]
  rfl

end Record

end ItemExpr.Wire
