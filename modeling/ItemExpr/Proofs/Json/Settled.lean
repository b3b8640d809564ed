import ItemExpr.Json.Draft
import ItemExpr.Proofs.Collections.Increasing

/-! # Documents with their members in order

A document may have the members of an object in any order and under one name more than once.
`settled` leaves the last member of each name and has them in the order of their names; arrays keep
the order of their items. -/

namespace ItemExpr.Json

/-- Induction on documents, with the items of an array and the members of an object at once. -/
@[elab_as_elim]
theorem induction {motive : Json → Prop} (null : motive .null)
    (bool : ∀ flag, motive (.bool flag)) (number : ∀ value, motive (.number value))
    (string : ∀ text, motive (.string text))
    (array : ∀ items, (∀ item ∈ items, motive item) → motive (.array items))
    (object : ∀ members, (∀ name value, (name, value) ∈ members → motive value) →
      motive (.object members)) (document : Json) : motive document := by
  cases document with
  | null => exact null
  | bool flag => exact bool flag
  | number value => exact number value
  | string text => exact string text
  | array items =>
    exact array items fun item _ => induction null bool number string array object item
  | object members =>
    exact object members fun _ value _ => induction null bool number string array object value
termination_by sizeOf document
decreasing_by
  · have smaller := List.sizeOf_lt_of_mem ‹item ∈ items›
    simp only [Json.array.sizeOf_spec]
    omega
  · have smaller := List.sizeOf_lt_of_mem ‹_ ∈ members›
    simp only [Json.object.sizeOf_spec, Prod.mk.sizeOf_spec] at smaller ⊢
    omega

mutual

/-- A document with the members of each of its objects **settled**: the last one of each name, in
the order of the names. -/
def settled : Json → Json
  | .array items => .array (settledItems items)
  | .object members => .object (Entries.ofList (settledMembers members))
  | document => document

/-- The items of an array, settled. -/
def settledItems : List Json → List Json
  | [] => []
  | item :: items => settled item :: settledItems items

/-- The members of an object, each settled. -/
def settledMembers : List (String × Json) → List (String × Json)
  | [] => []
  | (name, value) :: members => (name, settled value) :: settledMembers members

end

@[simp] theorem settledItems_eq_map (items : List Json) :
    settledItems items = items.map settled := by
  induction items with
  | nil => rfl
  | cons item items ih => rw [settledItems, ih, List.map_cons]

@[simp] theorem settledMembers_eq_map (members : List (String × Json)) :
    settledMembers members = members.map fun member => (member.1, member.2.settled) := by
  induction members with
  | nil => rfl
  | cons member members ih => rw [settledMembers, ih, List.map_cons]

/-- An object with one member has nothing to settle but the member. -/
theorem settled_object_singleton (name : String) (value : Json) :
    settled (.object [(name, value)]) = .object [(name, value.settled)] := rfl

/-- Texts in an array stay as they are. -/
theorem settled_array_strings (texts : List String) :
    settled (.array (texts.map .string)) = .array (texts.map .string) := by
  rw [settled, settledItems_eq_map, List.map_map]
  rfl

end ItemExpr.Json
