import ItemExpr.AttributeValue.Wire
import ItemExpr.Wire.Record

/-! # Requests

The inputs of the six operations, as far as they bear expressions, with their wire forms. An absent
option and an empty map are left out of the wire form; the key or item of a request is always
written. -/

namespace ItemExpr

open Wire

/-- Which attributes a write gives back. -/
inductive ReturnedAttributes where
  /-- None. -/
  | none
  /-- All, as they were before. -/
  | allOld
  /-- The changed ones, as they were before. -/
  | updatedOld
  /-- All, as they are now. -/
  | allNew
  /-- The changed ones, as they are now. -/
  | updatedNew
deriving DecidableEq, Repr

namespace ReturnedAttributes

/-- The spelling. -/
def word : ReturnedAttributes → String
  | .none => "NONE"
  | .allOld => "ALL_OLD"
  | .updatedOld => "UPDATED_OLD"
  | .allNew => "ALL_NEW"
  | .updatedNew => "UPDATED_NEW"

/-- The choices; the first is the default. -/
def choices : List ReturnedAttributes := [.none, .allOld, .updatedOld, .allNew, .updatedNew]

/-- The codec. -/
def codec : Codec ReturnedAttributes := Codec.choice word choices

end ReturnedAttributes

/-- What a query or a scan gives of the items that it finds. -/
inductive Selection where
  /-- All attributes. -/
  | allAttributes
  /-- All attributes that the index holds. -/
  | allProjected
  /-- The attributes of the projection. -/
  | specific
  /-- Only the number of items. -/
  | count
deriving DecidableEq, Repr

namespace Selection

/-- The spelling. -/
def word : Selection → String
  | .allAttributes => "ALL_ATTRIBUTES"
  | .allProjected => "ALL_PROJECTED_ATTRIBUTES"
  | .specific => "SPECIFIC_ATTRIBUTES"
  | .count => "COUNT"

/-- The choices; the first is the default. -/
def choices : List Selection := [.allAttributes, .allProjected, .specific, .count]

/-- The codec. -/
def codec : Codec Selection := Codec.choice word choices

end Selection

/-- An item, or the key of one: values by attribute. -/
abbrev Item := Entries AttributeValue

/-- The codec of items. -/
def Item.codec : Codec Item := AttributeValue.codec.entries

/-- A **request for one item**. -/
structure GetRequest where
  /-- The table. -/
  table : String := ""
  /-- The key of the item. -/
  key : Item := []
  /-- Whether the read sees all writes before it. -/
  consistent : Option Bool := none
  /-- The attributes to be returned. -/
  projection : Option String := none
  /-- Names by placeholder. -/
  names : Entries String := []
deriving Repr

/-- A **request to write one item**. -/
structure PutRequest where
  /-- The table. -/
  table : String := ""
  /-- The item. -/
  item : Item := []
  /-- The condition on the item that is there. -/
  condition : Option String := none
  /-- Names by placeholder. -/
  names : Entries String := []
  /-- Values by placeholder. -/
  values : Entries AttributeValue := []
  /-- Which attributes to give back. -/
  returned : Option ReturnedAttributes := none
deriving Repr

/-- A **request to change one item**. -/
structure UpdateRequest where
  /-- The table. -/
  table : String := ""
  /-- The key of the item. -/
  key : Item := []
  /-- The update. -/
  update : Option String := none
  /-- The condition on the item that is there. -/
  condition : Option String := none
  /-- Names by placeholder. -/
  names : Entries String := []
  /-- Values by placeholder. -/
  values : Entries AttributeValue := []
  /-- Which attributes to give back. -/
  returned : Option ReturnedAttributes := none
deriving Repr

/-- A **request to take one item away**. -/
structure DeleteRequest where
  /-- The table. -/
  table : String := ""
  /-- The key of the item. -/
  key : Item := []
  /-- The condition on the item that is there. -/
  condition : Option String := none
  /-- Names by placeholder. -/
  names : Entries String := []
  /-- Values by placeholder. -/
  values : Entries AttributeValue := []
  /-- Which attributes to give back. -/
  returned : Option ReturnedAttributes := none
deriving Repr

/-- A **request for the items of a key**. -/
structure QueryRequest where
  /-- The table. -/
  table : String := ""
  /-- The index, if it is one that is queried. -/
  index : Option String := none
  /-- The condition on the key. -/
  keyCondition : Option String := none
  /-- The condition on the items found. -/
  filter : Option String := none
  /-- The attributes to be returned. -/
  projection : Option String := none
  /-- Names by placeholder. -/
  names : Entries String := []
  /-- Values by placeholder. -/
  values : Entries AttributeValue := []
  /-- Whether the sort key ascends. -/
  forward : Option Bool := none
  /-- The greatest number of items looked at. -/
  limit : Option Int32 := none
  /-- What to give of the items. -/
  selection : Option Selection := none
deriving Repr

/-- A **request for all items**. -/
structure ScanRequest where
  /-- The table. -/
  table : String := ""
  /-- The index, if it is one that is scanned. -/
  index : Option String := none
  /-- The condition on the items found. -/
  filter : Option String := none
  /-- The attributes to be returned. -/
  projection : Option String := none
  /-- Names by placeholder. -/
  names : Entries String := []
  /-- Values by placeholder. -/
  values : Entries AttributeValue := []
  /-- The greatest number of items looked at. -/
  limit : Option Int32 := none
  /-- What to give of the items. -/
  selection : Option Selection := none
deriving Repr

/-! ### Wire forms -/

/-- The wire form of a request for one item. -/
def GetRequest.record : Record GetRequest where
  name := "GetItemInput"
  blank := {}
  fields :=
    [.required "TableName" Codec.text (·.table) fun table r => { r with table },
      .required "Key" Item.codec (·.key) fun key r => { r with key },
      .optional "ConsistentRead" Codec.boolean (·.consistent)
        fun consistent r => { r with consistent },
      .optional "ProjectionExpression" Codec.text (·.projection)
        fun projection r => { r with projection },
      .collection "ExpressionAttributeNames" Codec.text.entries (·.names)
        fun names r => { r with names }]

/-- The wire form of a request to write one item. -/
def PutRequest.record : Record PutRequest where
  name := "PutItemInput"
  blank := {}
  fields :=
    [.required "TableName" Codec.text (·.table) fun table r => { r with table },
      .required "Item" Item.codec (·.item) fun item r => { r with item },
      .optional "ConditionExpression" Codec.text (·.condition)
        fun condition r => { r with condition },
      .collection "ExpressionAttributeNames" Codec.text.entries (·.names)
        fun names r => { r with names },
      .collection "ExpressionAttributeValues" Item.codec (·.values)
        fun values r => { r with values },
      .optional "ReturnValues" ReturnedAttributes.codec (·.returned)
        fun returned r => { r with returned }]

/-- The wire form of a request to change one item. -/
def UpdateRequest.record : Record UpdateRequest where
  name := "UpdateItemInput"
  blank := {}
  fields :=
    [.required "TableName" Codec.text (·.table) fun table r => { r with table },
      .required "Key" Item.codec (·.key) fun key r => { r with key },
      .optional "UpdateExpression" Codec.text (·.update) fun update r => { r with update },
      .optional "ConditionExpression" Codec.text (·.condition)
        fun condition r => { r with condition },
      .collection "ExpressionAttributeNames" Codec.text.entries (·.names)
        fun names r => { r with names },
      .collection "ExpressionAttributeValues" Item.codec (·.values)
        fun values r => { r with values },
      .optional "ReturnValues" ReturnedAttributes.codec (·.returned)
        fun returned r => { r with returned }]

/-- The wire form of a request to take one item away. -/
def DeleteRequest.record : Record DeleteRequest where
  name := "DeleteItemInput"
  blank := {}
  fields :=
    [.required "TableName" Codec.text (·.table) fun table r => { r with table },
      .required "Key" Item.codec (·.key) fun key r => { r with key },
      .optional "ConditionExpression" Codec.text (·.condition)
        fun condition r => { r with condition },
      .collection "ExpressionAttributeNames" Codec.text.entries (·.names)
        fun names r => { r with names },
      .collection "ExpressionAttributeValues" Item.codec (·.values)
        fun values r => { r with values },
      .optional "ReturnValues" ReturnedAttributes.codec (·.returned)
        fun returned r => { r with returned }]

/-- The wire form of a request for the items of a key. -/
def QueryRequest.record : Record QueryRequest where
  name := "QueryInput"
  blank := {}
  fields :=
    [.required "TableName" Codec.text (·.table) fun table r => { r with table },
      .optional "IndexName" Codec.text (·.index) fun index r => { r with index },
      .optional "KeyConditionExpression" Codec.text (·.keyCondition)
        fun keyCondition r => { r with keyCondition },
      .optional "FilterExpression" Codec.text (·.filter) fun filter r => { r with filter },
      .optional "ProjectionExpression" Codec.text (·.projection)
        fun projection r => { r with projection },
      .collection "ExpressionAttributeNames" Codec.text.entries (·.names)
        fun names r => { r with names },
      .collection "ExpressionAttributeValues" Item.codec (·.values)
        fun values r => { r with values },
      .optional "ScanIndexForward" Codec.boolean (·.forward) fun forward r => { r with forward },
      .optional "Limit" Codec.int32 (·.limit) fun limit r => { r with limit },
      .optional "Select" Selection.codec (·.selection) fun selection r => { r with selection }]

/-- The wire form of a request for all items. -/
def ScanRequest.record : Record ScanRequest where
  name := "ScanInput"
  blank := {}
  fields :=
    [.required "TableName" Codec.text (·.table) fun table r => { r with table },
      .optional "IndexName" Codec.text (·.index) fun index r => { r with index },
      .optional "FilterExpression" Codec.text (·.filter) fun filter r => { r with filter },
      .optional "ProjectionExpression" Codec.text (·.projection)
        fun projection r => { r with projection },
      .collection "ExpressionAttributeNames" Codec.text.entries (·.names)
        fun names r => { r with names },
      .collection "ExpressionAttributeValues" Item.codec (·.values)
        fun values r => { r with values },
      .optional "Limit" Codec.int32 (·.limit) fun limit r => { r with limit },
      .optional "Select" Selection.codec (·.selection) fun selection r => { r with selection }]

end ItemExpr
