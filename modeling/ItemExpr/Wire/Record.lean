import ItemExpr.Wire.Codec

/-! # Records

A record is written as an object with a member for each of its fields, and read from an object
or from an array of its fields in order. `Record` describes both at once: each `Field` says how it
is written, how it is read into a record, and what its absence means.

In an object members of other names are passed over, as long as they are well formed, a field may
not occur twice, and once all members are read every required field has to be there. In an array
only defaulted fields may be left out, and nothing may follow the last field. -/

namespace ItemExpr.Wire

open Json (Draft)

/-- What the **absence of a field** means. -/
inductive Presence where
  /-- It has to be there. -/
  | required
  /-- An object may lack it. -/
  | optional
  /-- An object or an array may lack it. -/
  | defaulted
deriving DecidableEq, Repr

/-- A **field** of a record of type `ρ`. -/
structure Field (ρ : Type) where
  /-- The name of its member. -/
  name : String
  /-- What its absence means. -/
  presence : Presence
  /-- Read its draft into a record. -/
  read : Origin → Draft → ρ → Except Fault ρ
  /-- Its document, or `none` if it is left out. -/
  write : ρ → Option Json

namespace Field

variable {ρ α : Type}

/-- A field that is always written and has to be there. -/
def required (name : String) (codec : Codec α) (get : ρ → α) (set : α → ρ → ρ) : Field ρ where
  name
  presence := .required
  read origin draft record := (codec.decode origin draft).map (set · record)
  write record := some (codec.encode (get record))

/-- A field that may be absent; a null stands for an absent one. -/
def optional (name : String) (codec : Codec α) (get : ρ → Option α) (set : Option α → ρ → ρ) :
    Field ρ where
  name
  presence := .optional
  read origin draft record :=
    match draft with
    | .null => .ok (set none record)
    | draft => (codec.decode origin draft).map fun value => set (some value) record
  write record := (get record).map codec.encode

/-- A field with a default, always written. -/
def defaulted (name : String) (codec : Codec α) (get : ρ → α) (set : α → ρ → ρ) : Field ρ where
  name
  presence := .defaulted
  read origin draft record := (codec.decode origin draft).map (set · record)
  write record := some (codec.encode (get record))

/-- A list whose default is the empty one, which is not written. -/
def collection {α : Type} (name : String) (codec : Codec (List α)) (get : ρ → List α)
    (set : List α → ρ → ρ) : Field ρ where
  name
  presence := .defaulted
  read origin draft record := (codec.decode origin draft).map (set · record)
  write record := if (get record).isEmpty then none else some (codec.encode (get record))

end Field

/-- A **record** of type `ρ`. -/
structure Record (ρ : Type) where
  /-- The name of the record in error texts. -/
  name : String
  /-- The record with no field read. -/
  blank : ρ
  /-- The fields, in order. -/
  fields : List (Field ρ)

namespace Record

variable {ρ : Type}

/-- The document of a record. -/
def encode (record : Record ρ) (value : ρ) : Json :=
  .object (record.fields.filterMap fun field => (field.write value).map (field.name, ·))

/-- Read members in order, given the names of the fields read so far. -/
def readMembers (origin : Origin) (fields : List (Field ρ)) (seen : List String) (value : ρ) :
    List (Option String × Draft) → Except Fault (List String × ρ)
  | [] => .ok (seen, value)
  | (some name, draft) :: members =>
    match fields.find? fun field => field.name = name with
    | none => do
      closed draft.wellFormed ()
      readMembers origin fields seen value members
    | some field =>
      if name ∈ seen then .error (.repeated name)
      else do
        let value ← field.read origin draft value
        readMembers origin fields (name :: seen) value members
  | (none, _) :: _ => .error .malformed

/-- The first required field that was not read. -/
def firstMissing? (fields : List (Field ρ)) (seen : List String) : Option (Field ρ) :=
  fields.find? fun field => field.presence = .required && field.name ∉ seen

/-- Read a record from the members of an object. -/
def readObject (record : Record ρ) (origin : Origin)
    (members : List (Option String × Draft)) (isClosed : Bool) : Except Fault ρ := do
  let (seen, value) ← readMembers origin record.fields [] record.blank members
  closed isClosed ()
  match firstMissing? record.fields seen with
  | some field => .error (.missing field.name)
  | none => .ok value

/-- Read the fields from a position on out of the elements of an array. -/
def readElements (record : Record ρ) (origin : Origin) (isClosed : Bool) (position : Nat)
    (value : ρ) : List (Field ρ) → List Draft → Except Fault ρ
  | [], [] => closed isClosed value
  | [], extra@(_ :: _) => .error (origin.fault (.tooLong (position + extra.length)))
  | field :: fields, [] => do
    closed isClosed ()
    if field.presence = .defaulted then
      readElements record origin isClosed (position + 1) value fields []
    else .error (.tooShort position record.name record.fields.length)
  | field :: fields, element :: elements => do
    let value ← field.read origin element value
    readElements record origin isClosed (position + 1) value fields elements

/-- The record of a draft, or its first fault. -/
def decode (record : Record ρ) (origin : Origin) : Draft → Except Fault ρ
  | .object members isClosed => record.readObject origin members isClosed
  | .array elements isClosed =>
    record.readElements origin isClosed 0 record.blank record.fields elements
  | other => .error (.unexpected other (.record record.name))

/-- The codec of a record. -/
def codec (record : Record ρ) : Codec ρ := ⟨record.encode, record.decode⟩

end Record

end ItemExpr.Wire
