import ItemExpr.AttributeValue.Basic
import ItemExpr.Json.Printer

/-! # Attribute values of other data

How plain data become attribute values: integers and binary numbers by their decimal text,
instants and 128-bit identifiers by their usual text, absent data as null, and JSON documents as
trees of lists and maps.

An `Instant` counts seconds from 1970-01-01T00:00:00Z and nanoseconds within the second; a
nanosecond count of a whole second or more lies in a leap second. Its text is a date of the
proleptic Gregorian calendar and a time of day in milliseconds, in universal time. -/

namespace ItemExpr

/-! ### Instants and their text -/

/-- An **instant** of universal time. -/
structure Instant where
  /-- Whole seconds since the epoch. -/
  seconds : Int
  /-- Nanoseconds since that second; from `10 ^ 9` on inside a leap second. -/
  nanoseconds : Nat
deriving DecidableEq, Repr

namespace Instant

/-- A **date** of the proleptic Gregorian calendar, with a year zero. -/
structure Date where
  /-- The year. -/
  year : Int
  /-- The month, from 1. -/
  month : Nat
  /-- The day of the month, from 1. -/
  day : Nat
deriving DecidableEq, Repr

/-- Nanoseconds in a second. -/
def nanosPerSecond : Nat := 1000000000

/-- Nanoseconds in a millisecond. -/
def nanosPerMilli : Nat := 1000000

/-- Days in 400 years. -/
def daysPerEra : Nat := 146097

/-- Days from 0000-03-01 to 1970-01-01. -/
def daysToEpoch : Int := 719468

/-- The **date of a day** counted from the epoch. Years are counted from the first of March, so a
leap day is the last day of its year; within 400 years every fourth year but each hundredth one
has such a day. -/
def Date.ofDay (sinceEpoch : Int) : Date :=
  let day := sinceEpoch + daysToEpoch
  let era := day.fdiv daysPerEra
  let dayOfEra := (day.fmod daysPerEra).toNat
  -- A cycle of four years has 1461 days, a century 36524 and an era 146097: the quotients count
  -- the leap days before this day, so that what is left are years of 365 days.
  let yearOfEra := (dayOfEra - dayOfEra / 1460 + dayOfEra / 36524 - dayOfEra / 146096) / 365
  let dayOfYear := dayOfEra - (365 * yearOfEra + yearOfEra / 4 - yearOfEra / 100)
  -- From March on the months run 31, 30, 31, 30, 31: five of them have 153 days.
  let fromMarch := (5 * dayOfYear + 2) / 153
  let day := dayOfYear - (153 * fromMarch + 2) / 5 + 1
  let month := if fromMarch < 10 then fromMarch + 3 else fromMarch - 9
  let year := (yearOfEra : Int) + era * 400
  ⟨if month ≤ 2 then year + 1 else year, month, day⟩

/-- A year in four places; one before year zero or after 9999 has a sign. -/
def yearText (year : Int) : List Char :=
  let places := Text.padded 10 4 year.natAbs
  if year < 0 then '-' :: places else if 9999 < year then '+' :: places else places

/-- The **text of an instant**: date, time of day and milliseconds, cut and not rounded. A leap
second is written as second 60. -/
def text (instant : Instant) : String :=
  let date := Date.ofDay (instant.seconds.fdiv 86400)
  let time := (instant.seconds.fmod 86400).toNat
  let leap := instant.nanoseconds / nanosPerSecond
  let milliseconds := instant.nanoseconds % nanosPerSecond / nanosPerMilli
  let two := Text.padded 10 2
  String.ofList
    (yearText date.year ++ '-' :: two date.month ++ '-' :: two date.day ++
      'T' :: two (time / 3600) ++ ':' :: two (time / 60 % 60) ++ ':' :: two (time % 60 + leap) ++
      '.' :: Text.padded 10 3 milliseconds ++ ['Z'])

end Instant

/-! ### Conversions -/

namespace AttributeValue

/-- The number of an integer. -/
def ofInt (value : Int) : AttributeValue := .number (Number.intText value)

/-- The number of a binary number, by its shortest plain text. -/
def ofFloat (format : Number.Format) (datum : Number.Datum) : AttributeValue :=
  .number (datum.plain format)

/-- The text of an instant. -/
def ofInstant (instant : Instant) : AttributeValue := .string instant.text

/-- The text of a 128-bit identifier: 32 hexadecimal digits in groups of 8, 4, 4, 4 and 12. -/
def identifierText (identifier : Nat) : String :=
  let digits := Text.padded 16 32 identifier
  let group (start size : Nat) : List Char := (digits.drop start).take size
  String.ofList <| List.intercalate ['-']
    [group 0 8, group 8 4, group 12 4, group 16 4, group 20 12]

/-- The text of a 128-bit identifier. -/
def ofIdentifier (identifier : Nat) : AttributeValue := .string (identifierText identifier)

/-- A value that may be absent; the null value stands for an absent one. -/
def ofOption : Option AttributeValue → AttributeValue
  | none => .null true
  | some value => value

mutual

/-- The value of a **JSON document**. Sets and bytes have no JSON spelling; an object with a
repeated name keeps the last member of that name. -/
def ofDocument : Json → AttributeValue
  | .null => .null true
  | .bool flag => .boolean flag
  | .number value => .number value.text
  | .string text => .string text
  | .array items => .list (ofDocuments items)
  | .object members => .map (Entries.ofList (ofMembers members))

/-- The values of some documents. -/
def ofDocuments : List Json → List AttributeValue
  | [] => []
  | item :: items => ofDocument item :: ofDocuments items

/-- The values of the members of an object. -/
def ofMembers : List (String × Json) → List (String × AttributeValue)
  | [] => []
  | (name, value) :: members => (name, ofDocument value) :: ofMembers members

end

@[simp] theorem ofDocuments_eq_map (items : List Json) :
    ofDocuments items = items.map ofDocument := by
  induction items with
  | nil => rfl
  | cons item items ih => simp [ofDocuments, ih]

@[simp] theorem ofMembers_eq_map (members : List (String × Json)) :
    ofMembers members = members.map fun member => (member.1, ofDocument member.2) := by
  induction members with
  | nil => rfl
  | cons member members ih => simp [ofMembers, ih]

end AttributeValue

end ItemExpr
