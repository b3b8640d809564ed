import ItemExpr.CompileError
import ItemExpr.Wire.Record

/-! # Table schemas

What has to be known of a table to query it: the attributes of its primary key, and its global and
local secondary indexes with theirs. An index is looked up by name, global ones first. -/

namespace ItemExpr

/-- The **role** of an attribute in a key. -/
inductive KeyRole where
  /-- It chooses the partition. -/
  | partition
  /-- It sorts the items of a partition. -/
  | sort
deriving DecidableEq, Repr

/-- The spelling of a role. -/
def KeyRole.word : KeyRole → String
  | .partition => "HASH"
  | .sort => "RANGE"

/-- The roles. -/
def KeyRole.all : List KeyRole := [.partition, .sort]

/-- One **key attribute**. -/
structure KeyAttribute where
  /-- The attribute. -/
  name : String
  /-- Its role. -/
  role : KeyRole
deriving DecidableEq, Repr

/-- Which attributes an index holds. -/
inductive IndexContents where
  /-- All of them. -/
  | all
  /-- Those of the keys. -/
  | keysOnly
  /-- Those of the keys and some others. -/
  | keysAndOthers
deriving DecidableEq, Repr

/-- The spelling of the contents of an index. -/
def IndexContents.word : IndexContents → String
  | .all => "ALL"
  | .keysOnly => "KEYS_ONLY"
  | .keysAndOthers => "INCLUDE"

/-- The contents that an index can have; the first is the default. -/
def IndexContents.choices : List IndexContents := [.all, .keysOnly, .keysAndOthers]

/-- What an index **holds of an item**. -/
structure IndexProjection where
  /-- Which attributes. -/
  contents : Option IndexContents := none
  /-- The attributes besides those of the keys. -/
  others : List String := []
deriving DecidableEq, Repr

/-- A **secondary index**. -/
structure SecondaryIndex where
  /-- The name. -/
  name : String
  /-- The key. -/
  key : List KeyAttribute
  /-- What it holds of an item. -/
  projection : IndexProjection := {}
deriving DecidableEq, Repr

/-- The **schema** of a table. -/
structure TableSchema where
  /-- The name of the table. -/
  name : String
  /-- The primary key. -/
  key : List KeyAttribute
  /-- The global secondary indexes. -/
  globalIndexes : List SecondaryIndex := []
  /-- The local secondary indexes. -/
  localIndexes : List SecondaryIndex := []
deriving DecidableEq, Repr

/-- The first attribute of a role in a key. -/
def keyOfRole? (role : KeyRole) (key : List KeyAttribute) : Option String :=
  (key.find? fun entry => entry.role = role).map KeyAttribute.name

/-- The two **kinds of index**. -/
inductive IndexKind where
  /-- With a partition key of its own. -/
  | globalIndex
  /-- With the partition key of its table. -/
  | localIndex
deriving DecidableEq, Repr

namespace TableSchema

/-- The partition key of a table. -/
def partitionKey? (schema : TableSchema) : Option String := keyOfRole? .partition schema.key

/-- The sort key of a table. -/
def sortKey? (schema : TableSchema) : Option String := keyOfRole? .sort schema.key

/-- The first index of a name and its kind. -/
def findIndex? (schema : TableSchema) (name : String) : Option (IndexKind × SecondaryIndex) :=
  let named (index : SecondaryIndex) : Bool := index.name = name
  ((schema.globalIndexes.find? named).map (.globalIndex, ·)).or
    ((schema.localIndexes.find? named).map (.localIndex, ·))

/-- The index of a name and its kind; there has to be one. -/
def index (schema : TableSchema) (name : String) :
    Except CompileError (IndexKind × SecondaryIndex) :=
  match schema.findIndex? name with
  | some found => .ok found
  | none => .error (.unknownIndex schema.name name)

/-- The key of a table, or of its index of a name. -/
def keyOf (schema : TableSchema) : Option String → Except CompileError (List KeyAttribute)
  | none => .ok schema.key
  | some name => (schema.index name).map fun found => found.2.key

end TableSchema

/-! ### Wire forms -/

open Wire

/-- The codec of roles. -/
def KeyRole.codec : Codec KeyRole := Codec.choice KeyRole.word KeyRole.all

/-- The codec of the contents of an index. -/
def IndexContents.codec : Codec IndexContents :=
  Codec.choice IndexContents.word IndexContents.choices

/-- The wire form of a key attribute. -/
def KeyAttribute.record : Record KeyAttribute where
  name := "KeySchemaElement"
  blank := ⟨"", .partition⟩
  fields :=
    [.required "AttributeName" Codec.text (·.name) fun name k => { k with name },
      .required "KeyType" KeyRole.codec (·.role) fun role k => { k with role }]

/-- The wire form of what an index holds. -/
def IndexProjection.record : Record IndexProjection where
  name := "Projection"
  blank := {}
  fields :=
    [.optional "ProjectionType" IndexContents.codec (·.contents)
        fun contents p => { p with contents },
      .collection "NonKeyAttributes" Codec.text.list (·.others) fun others p => { p with others }]

/-- The wire form of a secondary index, which has a name for each kind. -/
def SecondaryIndex.record (name : String) : Record SecondaryIndex where
  name := name
  blank := ⟨"", [], {}⟩
  fields :=
    [.required "IndexName" Codec.text (·.name) fun name i => { i with name },
      .required "KeySchema" KeyAttribute.record.codec.list (·.key) fun key i => { i with key },
      .defaulted "Projection" IndexProjection.record.codec (·.projection)
        fun projection i => { i with projection }]

/-- The wire form of a global index. -/
def SecondaryIndex.globalRecord : Record SecondaryIndex :=
  SecondaryIndex.record "GlobalSecondaryIndex"

/-- The wire form of a local index. -/
def SecondaryIndex.localRecord : Record SecondaryIndex :=
  SecondaryIndex.record "LocalSecondaryIndex"

/-- The wire form of a schema. -/
def TableSchema.record : Record TableSchema where
  name := "TableSchema"
  blank := ⟨"", [], [], []⟩
  fields :=
    [.required "TableName" Codec.text (·.name) fun name t => { t with name },
      .required "KeySchema" KeyAttribute.record.codec.list (·.key) fun key t => { t with key },
      .collection "GlobalSecondaryIndexes" SecondaryIndex.globalRecord.codec.list
        (·.globalIndexes) fun globalIndexes t => { t with globalIndexes },
      .collection "LocalSecondaryIndexes" SecondaryIndex.localRecord.codec.list
        (·.localIndexes) fun localIndexes t => { t with localIndexes }]

end ItemExpr
