import ItemExpr.Base64
import Mathlib.Data.List.Lex
import Mathlib.Tactic.SplitIfs

/-! # The order of bytes

Texts are compared by the code points of their characters, which is the order of their UTF-8 bytes
(`Text.bytes_lt_iff`). The first byte of a character is greater for characters with more bytes,
and these have the greater code points; for characters with as many bytes, the bytes hold the
digits of the code points to the base 64. -/

namespace ItemExpr.Text

/-- The **bytes of a text** in UTF-8. -/
def bytes (text : String) : Bytes := text.toUTF8.data.toList

/-! ### Characters -/

/-- Bytes are less if the first one is, or if it is the same and those behind it are less. -/
theorem ofNat_cons_lt {a b : Nat} {s t : Bytes} (fits : b < 256) (first : a ≤ b)
    (behind : a = b → s < t) : UInt8.ofNat a :: s < UInt8.ofNat b :: t := by
  rw [List.cons_lt_cons_iff, UInt8.lt_iff_toNat_lt, UInt8.toNat_ofNat', UInt8.toNat_ofNat']
  rcases Nat.lt_or_eq_of_le first with less | rfl
  · exact Or.inl (by omega)
  · exact Or.inr ⟨rfl, behind rfl⟩

section Digits

variable {m n : Nat} (s t : Bytes)

/-- One more byte holds the last digit. -/
theorem oneDigit_lt (less : m % 64 < n % 64) :
    UInt8.ofNat (m % 64 + 128) :: s < UInt8.ofNat (n % 64 + 128) :: t :=
  ofNat_cons_lt (by omega) (by omega) fun same => by omega

/-- Two more bytes hold the last two digits. -/
theorem twoDigits_lt (less : m % 4096 < n % 4096) :
    UInt8.ofNat (m / 64 % 64 + 128) :: UInt8.ofNat (m % 64 + 128) :: s <
      UInt8.ofNat (n / 64 % 64 + 128) :: UInt8.ofNat (n % 64 + 128) :: t :=
  ofNat_cons_lt (by omega) (by omega) fun same => oneDigit_lt s t (by omega)

/-- Three more bytes hold the last three digits. -/
theorem threeDigits_lt (less : m % 262144 < n % 262144) :
    UInt8.ofNat (m / 4096 % 64 + 128) :: UInt8.ofNat (m / 64 % 64 + 128) ::
        UInt8.ofNat (m % 64 + 128) :: s <
      UInt8.ofNat (n / 4096 % 64 + 128) :: UInt8.ofNat (n / 64 % 64 + 128) ::
        UInt8.ofNat (n % 64 + 128) :: t :=
  ofNat_cons_lt (by omega) (by omega) fun same => twoDigits_lt s t (by omega)

end Digits

/-- The bytes of a lesser character are less, whatever stands behind. -/
theorem utf8EncodeChar_lt {c d : Char} (less : c < d) (s t : Bytes) :
    String.utf8EncodeChar c ++ s < String.utf8EncodeChar d ++ t := by
  have codes : c.val.toNat < d.val.toNat := UInt32.lt_iff_toNat_lt.1 less
  have small : d.val.toNat < 1114112 := by
    rcases d.valid with valid | valid <;> grind
  simp only [String.utf8EncodeChar]
  generalize c.val.toNat = m at *
  generalize d.val.toNat = n at *
  split_ifs
  all_goals refine ofNat_cons_lt (by omega) (by omega) fun same => ?_
  -- Only characters with as many bytes can have the same first byte.
  all_goals first
    | omega
    | exact oneDigit_lt s t (by omega)
    | exact twoDigits_lt s t (by omega)
    | exact threeDigits_lt s t (by omega)

/-! ### Texts -/

theorem bytes_eq_flatMap (text : String) :
    bytes text = text.toList.flatMap String.utf8EncodeChar := by
  conv_lhs => rw [← @String.ofList_toList text]
  rw [bytes, String.toUTF8, String.toByteArray_ofList, List.utf8Encode, List.data_toByteArray]

/-- The bytes of lesser characters are less. -/
theorem flatMap_utf8EncodeChar_lt {cs ds : List Char} (less : cs < ds) :
    cs.flatMap String.utf8EncodeChar < ds.flatMap String.utf8EncodeChar := by
  induction less with
  | @nil d ds =>
    -- No character is without bytes.
    have some : 0 < (String.utf8EncodeChar d).length := by
      rw [String.length_utf8EncodeChar]
      exact d.utf8Size_pos
    obtain ⟨byte, behind, same⟩ := List.exists_cons_of_length_pos some
    rw [List.flatMap_cons, same]
    exact List.nil_lt_cons _ _
  | rel less => exact utf8EncodeChar_lt less _ _
  | cons _ ih => exact List.Lex.append_left _ ih _

/-- **Texts are in the order of their bytes.** -/
theorem bytes_lt_iff {text other : String} : bytes text < bytes other ↔ text < other := by
  have increases : ∀ {text other : String}, text < other → bytes text < bytes other := by
    intro text other less
    rw [bytes_eq_flatMap, bytes_eq_flatMap]
    exact flatMap_utf8EncodeChar_lt (String.lt_iff.1 less)
  refine ⟨fun less => ?_, increases⟩
  by_contra notLess
  rcases Std.le_iff_lt_or_eq.1 (String.not_lt.1 notLess) with greater | rfl
  · exact List.lt_asymm less (increases greater)
  · exact List.lt_irrefl _ less

end ItemExpr.Text
