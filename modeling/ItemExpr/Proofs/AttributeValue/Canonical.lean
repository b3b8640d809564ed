import ItemExpr.AttributeValue.Summary

/-! # Canonical attribute values

The canonical form of a value has the members of each of its sets in increasing order and without
repetition, at every depth. Two values are equal exactly when they have one canonical form
(`same_iff_canonical`). So equality of values is an equivalence relation, although it looks neither
at the order nor at the repetition of the members of a set. -/

namespace ItemExpr.AttributeValue

mutual

/-- The **canonical form** of a value. -/
def canonical : AttributeValue → AttributeValue
  | .stringSet members => .stringSet (Members.distinct members)
  | .numberSet members => .numberSet (Members.distinct members)
  | .binarySet members => .binarySet (Members.distinct members)
  | .list items => .list (canonicalItems items)
  | .map entries => .map (canonicalEntries entries)
  | value => value

/-- The canonical forms of the items of a list. -/
def canonicalItems : List AttributeValue → List AttributeValue
  | [] => []
  | item :: items => canonical item :: canonicalItems items

/-- The entries of a map, each value in canonical form. -/
def canonicalEntries : List (String × AttributeValue) → List (String × AttributeValue)
  | [] => []
  | (key, value) :: entries => (key, canonical value) :: canonicalEntries entries

end

mutual

/-- Two values are equal exactly when their canonical forms are the same. -/
theorem same_iff_canonical : ∀ a b : AttributeValue, same a b = true ↔ canonical a = canonical b
  | .string _, b => by cases b <;> simp [same, canonical]
  | .number _, b => by cases b <;> simp [same, canonical]
  | .binary _, b => by cases b <;> simp [same, canonical]
  | .stringSet _, b => by cases b <;> simp [same, canonical]
  | .numberSet _, b => by cases b <;> simp [same, canonical]
  | .binarySet _, b => by cases b <;> simp [same, canonical]
  | .boolean _, b => by cases b <;> simp [same, canonical]
  | .null _, b => by cases b <;> simp [same, canonical]
  | .list items, b => by
    cases b with
    | list others => simpa [same, canonical] using sameItems_iff_canonical items others
    | _ => simp [same, canonical]
  | .map entries, b => by
    cases b with
    | map others => simpa [same, canonical] using sameEntries_iff_canonical entries others
    | _ => simp [same, canonical]

/-- Two lists of values are equal item by item exactly when their canonical forms are the same. -/
theorem sameItems_iff_canonical : ∀ as bs : List AttributeValue,
    sameItems as bs = true ↔ canonicalItems as = canonicalItems bs
  | [], bs => by cases bs <;> simp [sameItems, canonicalItems]
  | a :: as, bs => by
    cases bs with
    | nil => simp [sameItems, canonicalItems]
    | cons b bs =>
      simp [sameItems, canonicalItems, same_iff_canonical a b, sameItems_iff_canonical as bs]

/-- Two lists of entries have the same keys with equal values exactly when their canonical forms are
the same. -/
theorem sameEntries_iff_canonical : ∀ as bs : List (String × AttributeValue),
    sameEntries as bs = true ↔ canonicalEntries as = canonicalEntries bs
  | [], bs => by cases bs <;> simp [sameEntries, canonicalEntries]
  | (key, a) :: as, bs => by
    cases bs with
    | nil => simp [sameEntries, canonicalEntries]
    | cons entry bs =>
      obtain ⟨key', b⟩ := entry
      simp [sameEntries, canonicalEntries, same_iff_canonical a b, sameEntries_iff_canonical as bs,
        and_assoc]

end

/-- Two values are equal exactly when they have one canonical form. -/
theorem beq_iff_canonical {a b : AttributeValue} : (a == b) = true ↔ canonical a = canonical b :=
  same_iff_canonical a b

/-- Equality of values is an equivalence relation. -/
instance : EquivBEq AttributeValue where
  rfl := beq_iff_canonical.2 rfl
  symm equal := beq_iff_canonical.2 (beq_iff_canonical.1 equal).symm
  trans first second :=
    beq_iff_canonical.2 ((beq_iff_canonical.1 first).trans (beq_iff_canonical.1 second))

end ItemExpr.AttributeValue
