import ItemExpr.Placeholders

/-! # Placeholders with numbers

What placeholders look like and how far apart they are: a placeholder is a mark and word characters
(`IsMarked`), different numbers give different placeholders, and `nextFree` finds the first number
whose placeholder is not taken. -/

namespace ItemExpr

/-! ### Numerals -/

/-- A natural is read back from its decimal digits. -/
@[simp] theorem Text.ofDigits_digitsOf (n : Nat) : Text.ofDigits (Number.digitsOf n) = n :=
  Nat.ofDigitChars_ten_toDigits

@[simp] theorem Number.toList_natText (n : Nat) :
    (Number.natText n).toList = Number.digitsOf n := by
  simp [Number.natText]

/-- Different naturals have different texts. -/
theorem Number.natText_injective {m n : Nat} (same : Number.natText m = Number.natText n) :
    m = n := by
  have digits : Number.digitsOf m = Number.digitsOf n := by
    rw [← Number.toList_natText, same, Number.toList_natText]
  rw [← Text.ofDigits_digitsOf m, digits, Text.ofDigits_digitsOf]

theorem Number.digitsOf_ne_nil (n : Nat) : Number.digitsOf n ≠ [] := Nat.toDigits_ne_nil

theorem Number.isDigit_of_mem_digitsOf {n : Nat} {c : Char} (mem : c ∈ Number.digitsOf n) :
    c.isDigit = true :=
  Nat.isDigit_of_mem_toDigits (by decide) (by decide) mem

theorem Settings.isWordChar_of_isDigit {c : Char} (digit : c.isDigit = true) :
    Settings.isWordChar c = true := by
  simp [Settings.isWordChar, Char.isAlphanum, digit]

/-- The text of a natural is made of word characters. -/
theorem Number.isWordChar_of_mem_digitsOf {n : Nat} {c : Char} (mem : c ∈ Number.digitsOf n) :
    Settings.isWordChar c = true :=
  Settings.isWordChar_of_isDigit (Number.isDigit_of_mem_digitsOf mem)

namespace Placeholders

/-! ### The shape of placeholders -/

/-- Whether a text is a mark followed by word characters, at least one. -/
def IsMarked (mark : Char) (text : String) : Prop :=
  ∃ word : List Char, word ≠ [] ∧ (∀ c ∈ word, Settings.isWordChar c = true) ∧
    text.toList = mark :: word

/-- A text has one mark at most. -/
theorem IsMarked.unique {mark mark' : Char} {text : String} (marked : IsMarked mark text)
    (marked' : IsMarked mark' text) : mark = mark' := by
  obtain ⟨word, _, _, chars⟩ := marked
  obtain ⟨word', _, _, chars'⟩ := marked'
  rw [chars] at chars'
  exact (List.cons.inj chars').1

/-- A plain name behind its mark. -/
theorem isMarked_readable {name : String} (plain : isPlainName name = true) :
    IsMarked '#' (readable name) := by
  rw [isPlainName, Bool.and_eq_true] at plain
  obtain ⟨nonempty, word⟩ := plain
  refine ⟨name.toList, ?_, List.all_eq_true.1 word, ?_⟩
  · simpa using nonempty
  · simp [readable]

/-- A number behind its mark. -/
theorem isMarked_numbered (number : Nat) : IsMarked '#' (numbered number) := by
  refine ⟨'n' :: Number.digitsOf number, by simp, ?_, by simp [numbered]⟩
  intro c mem
  rcases List.mem_cons.1 mem with rfl | mem
  · rfl
  · exact Number.isWordChar_of_mem_digitsOf mem

/-- The placeholder of a value, if the stem of the settings is fit to begin one. -/
theorem isMarked_valuePlaceholder {table : Placeholders}
    (stem : Settings.isStem table.settings.stem = true) (number : Nat) :
    IsMarked ':' (table.valuePlaceholder number) := by
  rw [Settings.isStem] at stem
  split at stem
  case h_1 rest chars =>
    refine ⟨rest ++ Number.digitsOf number, ?_, ?_, by simp [valuePlaceholder, chars]⟩
    · simp [Number.digitsOf_ne_nil]
    · intro c mem
      rcases List.mem_append.1 mem with mem | mem
      · exact List.all_eq_true.1 stem c mem
      · exact Number.isWordChar_of_mem_digitsOf mem
  case h_2 => cases stem

/-- Different numbers have different placeholders of names. -/
theorem numbered_injective {m n : Nat} (same : numbered m = numbered n) : m = n :=
  Number.natText_injective (String.append_right_inj _ |>.1 same)

/-- Different numbers have different placeholders of values. -/
theorem valuePlaceholder_injective {table : Placeholders} {m n : Nat}
    (same : table.valuePlaceholder m = table.valuePlaceholder n) : m = n :=
  Number.natText_injective (String.append_right_inj _ |>.1 same)

/-! ### The next free number -/

/-- The next free number is a new one. -/
theorem lt_nextFree (taken : List String) (last : Nat) : last < nextFree taken last := by
  fun_induction nextFree taken last with
  | case1 taken last mem ih => omega
  | case2 taken last free => omega

/-- The placeholder of the next free number is not taken. -/
theorem numbered_nextFree_notMem (taken : List String) (last : Nat) :
    numbered (nextFree taken last) ∉ taken := by
  fun_induction nextFree taken last with
  | case1 taken last mem ih =>
    intro bad
    have later := lt_nextFree (taken.erase (numbered (last + 1))) (last + 1)
    -- What was struck out is the placeholder of a smaller number.
    have differ : numbered (nextFree (taken.erase (numbered (last + 1))) (last + 1)) ≠
        numbered (last + 1) := by
      intro same
      have := numbered_injective same
      omega
    exact ih ((List.mem_erase_of_ne differ).2 bad)
  | case2 taken last free => exact free

/-- Every number that was passed over has its placeholder taken. -/
theorem numbered_mem_of_lt_nextFree {taken : List String} {last number : Nat}
    (after : last < number) (before : number < nextFree taken last) :
    numbered number ∈ taken := by
  fun_induction nextFree taken last with
  | case1 taken last mem ih =>
    by_cases first : number = last + 1
    · rw [first]
      exact mem
    · exact List.mem_of_mem_erase (ih (by omega) before)
  | case2 taken last free => omega

end Placeholders

end ItemExpr
