import ItemExpr.Proofs.Compile.Phrase
import ItemExpr.Wire.Codec
import Mathlib.Data.List.Forall2

/-! # What codecs read

The items of an array and the members of an object are read one by one, so that there is a result
exactly if each has one. -/

namespace ItemExpr.Wire.Codec

open Json (Draft)

variable {α : Type}

/-- Items are read **one by one**. -/
theorem decodeItems_eq_ok_iff {decode : Draft → Except Fault α} {items : List Draft}
    {values : List α} :
    decodeItems decode items = .ok values ↔
      List.Forall₂ (fun item value => decode item = .ok value) items values := by
  induction items generalizing values with
  | nil =>
    rw [List.forall₂_nil_left_iff]
    constructor
    · rintro ⟨⟩
      rfl
    · rintro rfl
      rfl
  | cons item items ih =>
    rw [decodeItems, bind_eq_ok_iff, List.forall₂_cons_left_iff]
    constructor
    · rintro ⟨first, known, read⟩
      obtain ⟨rest, others, same⟩ := bind_eq_ok_iff.1 read
      cases same
      exact ⟨first, rest, known, ih.1 others, rfl⟩
    · rintro ⟨first, rest, known, others, rfl⟩
      exact ⟨first, known, bind_eq_ok_iff.2 ⟨rest, ih.2 others, rfl⟩⟩

/-- Members are read **one by one**, each under its name. -/
theorem decodeMembers_eq_ok_iff {decode : Draft → Except Fault α}
    {members : List (Option String × Draft)} {pairs : List (String × α)} :
    decodeMembers decode members = .ok pairs ↔
      List.Forall₂ (fun member pair => member.1 = some pair.1 ∧ decode member.2 = .ok pair.2)
        members pairs := by
  induction members generalizing pairs with
  | nil =>
    rw [List.forall₂_nil_left_iff]
    constructor
    · rintro ⟨⟩
      rfl
    · rintro rfl
      rfl
  | cons member members ih =>
    obtain ⟨name, member⟩ := member
    rw [List.forall₂_cons_left_iff]
    cases name with
    | none =>
      refine iff_of_false nofun ?_
      rintro ⟨_, _, ⟨⟨⟩, _⟩, _⟩
    | some name =>
      rw [decodeMembers, bind_eq_ok_iff]
      constructor
      · rintro ⟨first, known, read⟩
        obtain ⟨rest, others, same⟩ := bind_eq_ok_iff.1 read
        cases same
        exact ⟨(name, first), rest, ⟨rfl, known⟩, ih.1 others, rfl⟩
      · rintro ⟨⟨key, first⟩, rest, ⟨same, known⟩, others, rfl⟩
        cases same
        exact ⟨first, known, bind_eq_ok_iff.2 ⟨rest, ih.2 others, rfl⟩⟩

/-- A text is read from a string. -/
theorem text_decode_eq_ok_iff {origin : Origin} {document : Json} {found : String} :
    text.decode origin document.draft = .ok found ↔ document = .string found := by
  cases document with
  | string other =>
    constructor
    · rintro ⟨⟩
      rfl
    · rintro ⟨⟩
      rfl
  | _ => exact iff_of_false nofun nofun

/-- A truth value is read from one. -/
theorem boolean_decode_eq_ok_iff {origin : Origin} {document : Json} {found : Bool} :
    boolean.decode origin document.draft = .ok found ↔ document = .bool found := by
  cases document with
  | bool other =>
    constructor
    · rintro ⟨⟩
      rfl
    · rintro ⟨⟩
      rfl
  | _ => exact iff_of_false nofun nofun

/-- A list of texts is read from an array of them. -/
theorem texts_decode_eq_ok_iff {origin : Origin} {document : Json} {found : List String} :
    text.list.decode origin document.draft = .ok found ↔
      document = .array (found.map .string) := by
  cases document with
  | array items =>
    have each : decodeItems (text.decode origin) (items.map Json.draft) = .ok found ↔
        items = found.map .string := by
      rw [decodeItems_eq_ok_iff, List.forall₂_map_left_iff, ← List.forall₂_eq_eq_eq,
        List.forall₂_map_right_iff]
      simp only [text_decode_eq_ok_iff]
    rw [Json.array.injEq, ← each, Json.draft, Json.draftItems_eq_map]
    show decodeItems (text.decode origin) (items.map Json.draft) >>= closed true = _ ↔ _
    rw [bind_eq_ok_iff]
    constructor
    · rintro ⟨values, read, same⟩
      cases same
      exact read
    · exact fun read => ⟨found, read, rfl⟩
  | _ => exact iff_of_false nofun nofun

end ItemExpr.Wire.Codec
