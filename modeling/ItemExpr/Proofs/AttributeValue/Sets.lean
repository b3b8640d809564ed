import ItemExpr.Proofs.Collections.ByteOrder
import ItemExpr.Proofs.Wire.Restored

/-! # Sets in normal form

A set may be kept as any list of its members, but the constructors of sets keep it in one way only:
each member once, in the order of the bytes (`Normalizes`). So what they make is equal to the set of
any list with the same members, and it is one value, with one text on the wire, exactly for the
same members. Numbers are members by their texts, and in the order of these. -/

namespace ItemExpr.AttributeValue

/-- Whether a way to `make` sets **normalizes** them. A set is made from what is `given`, which is
converted to members; `raw` is the set of a list of members as it is. -/
structure Normalizes {α μ : Type} (convert : α → μ) (bytes : μ → Bytes)
    (raw : List μ → AttributeValue) (make : List α → AttributeValue) : Prop where
  /-- A set has exactly the members that are given, each once, in the order of their bytes. -/
  members : ∀ given, ∃ members, make given = raw members ∧
    members.Pairwise (fun a b => bytes a < bytes b) ∧
    ∀ member, member ∈ members ↔ ∃ a ∈ given, convert a = member
  /-- It is equal to the set of any list with the same members, and to no other. -/
  equal : ∀ given listed, (make given == raw listed) = true ↔
    ∀ member, (∃ a ∈ given, convert a = member) ↔ member ∈ listed
  /-- Two sets are one value exactly if the same members are given. -/
  one : ∀ given given', make given = make given' ↔
    ∀ member, (∃ a ∈ given, convert a = member) ↔ ∃ a ∈ given', convert a = member
  /-- Two sets have one text on the wire exactly if the same members are given. -/
  written : ∀ given given', (encode (make given)).print = (encode (make given')).print ↔
    ∀ member, (∃ a ∈ given, convert a = member) ↔ ∃ a ∈ given', convert a = member

/-- Values in order are told apart by their texts on the wire. -/
theorem print_encode_injective {a b : AttributeValue} (ordered : a.Ordered) (ordered' : b.Ordered)
    (same : (encode a).print = (encode b).print) : a = b := by
  -- A text is read as its value put in order, and both values are in order already.
  have read : codec.ofText (encode a).print = .ok a.arranged :=
    (Wire.restores_attributeValue ordered.keyed).roundTrips.text
  have read' : codec.ofText (encode b).print = .ok b.arranged :=
    (Wire.restores_attributeValue ordered'.keyed).roundTrips.text
  rw [ordered.arranged_eq, same] at read
  rw [ordered'.arranged_eq, read] at read'
  exact Except.ok.inj read'

section Normalizes

variable {α μ : Type} [LT μ] [DecidableLT μ] [DecidableEq μ]
  [Trans (α := μ) (· < ·) (· < ·) (· < ·)] [Std.Trichotomous (α := μ) (· < ·)]
  [Std.Asymm (α := μ) (· < ·)]

/-- A set of distinct members is in normal form. -/
theorem normalizes_distinct {bytes : μ → Bytes} {raw : List μ → AttributeValue}
    (increases : ∀ {a b : μ}, a < b → bytes a < bytes b)
    (injective : ∀ {members members'}, raw members = raw members' → members = members')
    (equal : ∀ members members', (raw members == raw members') = true ↔
      Members.distinct members = Members.distinct members')
    (ordered : ∀ members, (raw members).Ordered) (convert : α → μ) :
    Normalizes convert bytes raw fun given => raw (Members.distinct (given.map convert)) where
  members given := by
    refine ⟨_, rfl, (Members.pairwise_distinct _).imp increases, fun member => ?_⟩
    rw [Members.mem_distinct, List.mem_map]
  equal given listed := by
    rw [equal, Members.distinct_eq_iff]
    simp only [Members.mem_distinct, List.mem_map]
  one given given' := by
    simp only [← List.mem_map, ← Members.distinct_eq_iff]
    exact ⟨injective, congrArg raw⟩
  written given given' := by
    simp only [← List.mem_map, ← Members.distinct_eq_iff]
    constructor
    · intro same
      exact injective (print_encode_injective (ordered _) (ordered _) same)
    · intro same
      rw [same]

end Normalizes

/-- **The constructors of sets normalize**, whatever their members are converted from. -/
theorem constructors_normalize {α : Type} (text : α → String) (bytes : α → Bytes) :
    Normalizes text Text.bytes .stringSet (fun given => ofStrings (given.map text)) ∧
    Normalizes text Text.bytes .numberSet (fun given => ofNumbers (given.map text)) ∧
    Normalizes bytes id .binarySet (fun given => ofBinaries (given.map bytes)) := by
  refine ⟨?strings, ?numbers, ?binaries⟩
  case strings =>
    exact normalizes_distinct Text.bytes_lt_iff.2 stringSet.inj
      (fun _ _ => by rw [beq_def, same, beq_iff_eq]) (fun _ => trivial) text
  case numbers =>
    exact normalizes_distinct Text.bytes_lt_iff.2 numberSet.inj
      (fun _ _ => by rw [beq_def, same, beq_iff_eq]) (fun _ => trivial) text
  case binaries =>
    exact normalizes_distinct id binarySet.inj
      (fun _ _ => by rw [beq_def, same, beq_iff_eq]) (fun _ => trivial) bytes

/-- Nine stands behind ten, as its text does, and is another member when it has a fraction. -/
example : ofNumbers ["9.0", "9", "10", "9"] = .numberSet ["10", "9", "9.0"] := by rfl

end ItemExpr.AttributeValue
