import ItemExpr.Proofs.Path.Roots
import ItemExpr.Proofs.Placeholders.Numbering
import Mathlib.Data.List.Induction

/-! # The grammar of paths

A path is spelled by its root and its steps in order, a point in front of each field and brackets
around each index, which may have any number of leading zeros (`Path.IsSpelledBy`). A text is parsed
as a path exactly if it spells the path (`Path.parse_eq_ok_iff`). So a path can have many spellings,
but only one of them is without leading zeros (`Path.eq_text_of_parse`). -/

namespace ItemExpr

/-! ### Numerals with leading zeros -/

/-- The value of digits in front of one more digit. -/
theorem Text.ofDigits_append_singleton (digits : List Char) (c : Char) :
    Text.ofDigits (digits ++ [c]) = 10 * Text.ofDigits digits + Text.digitValue c := by
  rw [ofDigits, List.foldl_append]
  rfl

theorem Text.ofDigits_replicate_zero_append (zeros : Nat) (digits : List Char) :
    Text.ofDigits (List.replicate zeros '0' ++ digits) = Text.ofDigits digits := by
  induction zeros with
  | zero => rfl
  | succ zeros ih =>
    rw [List.replicate_succ, List.cons_append, ← ih]
    rfl

/-- A digit is the digit of its value. -/
theorem Text.digitChar_digitValue {c : Char} (digit : c.isDigit = true) :
    Text.digitValue c < 10 ∧ Nat.digitChar (Text.digitValue c) = c := by
  have bounds : 48 ≤ c.toNat ∧ c.toNat ≤ 57 := by
    simpa [Char.isDigit, Char.le_def, UInt32.le_iff_toNat_le] using digit
  have value : Text.digitValue c = c.toNat - 48 := rfl
  refine ⟨by omega, ?_⟩
  have digits : ∀ value < 10, Nat.digitChar value = Char.ofNat (48 + value) := by decide
  rw [digits _ (by omega), value, Nat.add_sub_cancel' bounds.1, Char.ofNat_toNat]

/-- Digits are the numeral of their value behind **leading zeros**. -/
theorem Text.eq_zeros_append_digitsOf {digits : List Char} (nonempty : digits ≠ [])
    (all : ∀ c ∈ digits, c.isDigit = true) :
    ∃ zeros, digits = List.replicate zeros '0' ++ Number.digitsOf (Text.ofDigits digits) := by
  induction digits using List.reverseRecOn with
  | nil => exact absurd rfl nonempty
  | append_singleton digits c ih =>
    rw [List.forall_mem_append, List.forall_mem_singleton] at all
    obtain ⟨small, same⟩ := Text.digitChar_digitValue all.2
    rw [ofDigits_append_singleton]
    by_cases alone : digits = []
    · subst alone
      refine ⟨0, ?_⟩
      rw [ofDigits_nil, Nat.mul_zero, Nat.zero_add, Number.digitsOf,
        Nat.toDigits_of_lt_base small, same]
      rfl
    · obtain ⟨zeros, before⟩ := ih alone all.1
      by_cases zero : Text.ofDigits digits = 0
      · -- All digits before the last one are zeros.
        refine ⟨zeros + 1, ?_⟩
        rw [zero] at before
        rw [zero, Nat.mul_zero, Nat.zero_add, Number.digitsOf, Nat.toDigits_of_lt_base small, same,
          before, List.replicate_succ']
        rfl
      · refine ⟨zeros, ?_⟩
        have large : 10 ≤ 10 * Text.ofDigits digits + Text.digitValue c := by omega
        have quotient : (10 * Text.ofDigits digits + Text.digitValue c) / 10 =
            Text.ofDigits digits := by omega
        have remainder : (10 * Text.ofDigits digits + Text.digitValue c) % 10 =
            Text.digitValue c := by omega
        rw [Number.digitsOf, Nat.toDigits_of_base_le (by decide) large, quotient, remainder, same,
          ← List.append_assoc, ← Number.digitsOf, ← before]

/-- A numeral of several digits does not begin with a zero. -/
theorem Number.digitsOf_ne_zero_cons (n : Nat) (d : Char) (digits : List Char) :
    Number.digitsOf n ≠ '0' :: d :: digits := by
  intro numeral
  have digital : ∀ c ∈ d :: digits, c.isDigit = true := by
    intro c mem
    exact Number.isDigit_of_mem_digitsOf (numeral ▸ List.mem_cons_of_mem '0' mem)
  have value : Text.ofDigits (d :: digits) = n := by
    have whole := Text.ofDigits_digitsOf n
    rw [numeral] at whole
    exact (Text.ofDigits_replicate_zero_append 1 (d :: digits)).symm.trans whole
  -- The digits behind the zero would be the numeral again, behind further zeros.
  obtain ⟨zeros, same⟩ := Text.eq_zeros_append_digitsOf (List.cons_ne_nil d digits) digital
  rw [value, numeral] at same
  have lengths := congrArg List.length same
  simp at lengths
  omega

/-- A numeral behind leading zeros is made of digits. -/
theorem Number.isDigit_of_mem_zeros_append {zeros n : Nat} {c : Char}
    (mem : c ∈ List.replicate zeros '0' ++ Number.digitsOf n) : c.isDigit = true := by
  rcases List.mem_append.1 mem with mem | mem
  · rw [List.eq_of_mem_replicate mem]
    rfl
  · exact Number.isDigit_of_mem_digitsOf mem

/-- Whether characters are a **numeral** of a natural: digits, at least one, that have its value. -/
def Text.IsNumeral (digits : List Char) (n : Nat) : Prop :=
  digits ≠ [] ∧ (∀ c ∈ digits, c.isDigit = true) ∧ Text.ofDigits digits = n

/-- The numerals of a natural are its digits behind any number of zeros. -/
theorem Text.isNumeral_iff {digits : List Char} {n : Nat} :
    Text.IsNumeral digits n ↔
      ∃ zeros, digits = List.replicate zeros '0' ++ Number.digitsOf n := by
  constructor
  · rintro ⟨nonempty, digital, rfl⟩
    exact Text.eq_zeros_append_digitsOf nonempty digital
  · rintro ⟨zeros, rfl⟩
    refine ⟨?_, fun c mem => Number.isDigit_of_mem_zeros_append mem, ?_⟩
    · exact fun none => Number.digitsOf_ne_nil n (List.append_eq_nil_iff.1 none).2
    · rw [Text.ofDigits_replicate_zero_append, Text.ofDigits_digitsOf]

namespace Path

open Compile

/-! ### Spellings -/

/-- Whether characters can be the **name** of an attribute in the text of a path. -/
def IsName (cs : List Char) : Prop := cs ≠ [] ∧ '.' ∉ cs ∧ '[' ∉ cs ∧ ']' ∉ cs

/-- Whether characters **spell** some steps. -/
inductive AreSpelledBy : List Step → List Char → Prop where
  /-- No steps. -/
  | nil : AreSpelledBy [] []
  /-- A point and a name in front of further steps. -/
  | field {name : String} {steps : List Step} {cs : List Char} (isName : IsName name.toList)
    (behind : AreSpelledBy steps cs) :
    AreSpelledBy (.field name :: steps) ('.' :: (name.toList ++ cs))
  /-- An index in brackets, with leading zeros, in front of further steps. -/
  | index {position : Nat} {steps : List Step} {cs : List Char} (zeros : Nat)
    (small : position < Number.wordBound) (behind : AreSpelledBy steps cs) :
    AreSpelledBy (.index position :: steps)
      ('[' :: (List.replicate zeros '0' ++ Number.digitsOf position ++ ']' :: cs))

/-- Whether a text **spells** a path. -/
def IsSpelledBy (path : Path) (text : String) : Prop :=
  IsName path.root.toList ∧
    ∃ cs, text.toList = path.root.toList ++ cs ∧ AreSpelledBy path.steps cs

/-- Steps are spelled one after the other. -/
theorem AreSpelledBy.append {first second : List Step} {cs cs' : List Char}
    (before : AreSpelledBy first cs) (behind : AreSpelledBy second cs') :
    AreSpelledBy (first ++ second) (cs ++ cs') := by
  induction before with
  | nil => exact behind
  | field isName _ ih =>
    simpa only [List.cons_append, List.append_assoc] using AreSpelledBy.field isName ih
  | index zeros small _ ih =>
    simpa only [List.cons_append, List.append_assoc] using AreSpelledBy.index zeros small ih

/-! ### Indexes -/

/-- Digits stand for a position exactly if they are its numeral behind leading zeros. -/
theorem position_eq_ok_iff {digits : List Char} {n : Nat} :
    position digits = .ok n ↔
      n < Number.wordBound ∧ ∃ zeros, digits = List.replicate zeros '0' ++ Number.digitsOf n := by
  rw [← Text.isNumeral_iff, position, Text.IsNumeral]
  constructor
  · intro reads
    split at reads
    · cases reads
    · next digital =>
      split at reads
      · next small =>
        cases reads
        rw [Bool.or_eq_true, not_or, List.isEmpty_iff, Bool.not_eq_true', Bool.not_eq_false,
          List.all_eq_true] at digital
        exact ⟨small, digital.1, digital.2, rfl⟩
      · cases reads
  · rintro ⟨small, nonempty, digital, rfl⟩
    rw [List.isEmpty_eq_false_iff.2 nonempty, List.all_eq_true.2 digital]
    exact if_pos small

/-- What is read inside brackets is an index, its closing bracket and further indexes. -/
theorem indexes_some_eq_ok {inside cs : List Char} {positions : List Nat}
    (reads : indexes (some inside) cs = .ok positions) :
    ∃ digits rest first others, cs = digits ++ ']' :: rest ∧
      position (inside.reverse ++ digits) = .ok first ∧ indexes none rest = .ok others ∧
      positions = first :: others := by
  induction cs generalizing inside with
  | nil => cases reads
  | cons c cs ih =>
    rw [indexes] at reads
    split at reads
    · next closing =>
      obtain ⟨first, others, known, rest, rfl⟩ := cons_eq_ok_iff.1 reads
      refine ⟨[], cs, first, others, by rw [closing]; rfl, ?_, rest, rfl⟩
      rw [List.append_nil]
      exact known
    · obtain ⟨digits, rest, first, others, rfl, known, behind, rfl⟩ := ih reads
      refine ⟨c :: digits, rest, first, others, rfl, ?_, behind, rfl⟩
      rw [List.reverse_cons, List.append_assoc] at known
      exact known

/-- Inside brackets everything up to the closing one is taken for the index. -/
theorem indexes_some_append {inside digits rest : List Char} (open_ : ']' ∉ digits) :
    indexes (some inside) (digits ++ ']' :: rest) = (do
      let first ← position (inside.reverse ++ digits)
      let others ← indexes none rest
      pure (first :: others)) := by
  induction digits generalizing inside with
  | nil => rw [List.nil_append, indexes, if_pos rfl, List.append_nil]
  | cons c digits ih =>
    rw [List.mem_cons, not_or] at open_
    rw [List.cons_append, indexes, if_neg (Ne.symm open_.1), ih open_.2, List.reverse_cons,
      List.append_assoc]
    rfl

/-- What is read as indexes spells them. -/
theorem areSpelledBy_of_indexes {cs : List Char} {positions : List Nat}
    (reads : indexes none cs = .ok positions) : AreSpelledBy (positions.map .index) cs := by
  match cs, reads with
  | [], reads =>
    cases reads
    exact .nil
  | c :: cs, reads =>
    rw [indexes] at reads
    split at reads
    · next opening =>
      obtain ⟨digits, rest, first, others, shorter, known, behind, rfl⟩ := indexes_some_eq_ok reads
      obtain ⟨small, zeros, spelled⟩ := position_eq_ok_iff.1 known
      rw [List.reverse_nil, List.nil_append] at spelled
      have := areSpelledBy_of_indexes behind
      rw [opening, shorter, spelled]
      exact .index zeros small this
    · cases reads
termination_by cs.length
decreasing_by
  rw [shorter]
  simp only [List.length_cons, List.length_append]
  omega

/-- Indexes begin with an opening bracket. -/
theorem eq_nil_or_cons_of_indexes {cs : List Char} {positions : List Nat}
    (reads : indexes none cs = .ok positions) : cs = [] ∨ ∃ rest, cs = '[' :: rest := by
  match cs, reads with
  | [], _ => exact .inl rfl
  | c :: cs, reads =>
    rw [indexes] at reads
    split at reads
    · next opening => exact .inr ⟨cs, by rw [opening]⟩
    · cases reads

/-! ### Segments -/

/-- A segment is a name without brackets and indexes behind it. -/
theorem segment_eq_ok_iff {cs : List Char} {name : String} {positions : List Nat} :
    segment cs = .ok (name, positions) ↔
      (name.toList ≠ [] ∧ '[' ∉ name.toList ∧ ']' ∉ name.toList) ∧
        ∃ rest, cs = name.toList ++ rest ∧ indexes none rest = .ok positions := by
  constructor
  · intro reads
    rw [segment] at reads
    split at reads
    · cases reads
    · next nonempty =>
      split at reads
      · cases reads
      · next balanced =>
        obtain ⟨positions', indexed, same⟩ := bind_eq_ok_iff.1 reads
        cases same
        rw [String.toList_ofList]
        refine ⟨⟨?_, ?_, balanced⟩, _, List.takeWhile_append_dropWhile.symm, indexed⟩
        · simpa using nonempty
        · intro mem
          simpa using List.mem_takeWhile_imp mem
  · rintro ⟨⟨nonempty, opening, closing⟩, rest, rfl, indexed⟩
    have inName : ∀ c ∈ name.toList, decide (c ≠ '[') = true := by
      intro c mem
      exact decide_eq_true fun same => opening (same ▸ mem)
    -- The name ends where the indexes begin.
    have taken : (name.toList ++ rest).takeWhile (· ≠ '[') = name.toList := by
      rw [List.takeWhile_append_of_pos inName]
      rcases eq_nil_or_cons_of_indexes indexed with rfl | ⟨rest, rfl⟩ <;> simp
    have left : (name.toList ++ rest).dropWhile (· ≠ '[') = rest := by
      rw [List.dropWhile_append_of_pos inName]
      rcases eq_nil_or_cons_of_indexes indexed with rfl | ⟨rest, rfl⟩ <;> simp
    simp only [segment, taken, left, indexed, List.isEmpty_iff, if_neg nonempty, if_neg closing]
    rw [String.ofList_toList]
    rfl

/-- What is read as segments spells a point, a name and indexes for each of them. -/
theorem areSpelledBy_of_segments {pieces : List (List Char)} {steps : List Step}
    (points : ∀ piece ∈ pieces, '.' ∉ piece) (reads : segments pieces = .ok steps) :
    AreSpelledBy steps (pieces.flatMap fun piece => '.' :: piece) := by
  induction pieces generalizing steps with
  | nil =>
    cases reads
    exact .nil
  | cons piece pieces ih =>
    rw [List.forall_mem_cons] at points
    obtain ⟨⟨name, positions⟩, first, reads⟩ := bind_eq_ok_iff.1 reads
    obtain ⟨others, behind, same⟩ := bind_eq_ok_iff.1 reads
    cases same
    obtain ⟨⟨nonempty, opening, closing⟩, rest, rfl, indexed⟩ := segment_eq_ok_iff.1 first
    have point : '.' ∉ name.toList := fun mem => points.1 (List.mem_append_left _ mem)
    have spelled := (areSpelledBy_of_indexes indexed).append (ih points.2 behind)
    simpa only [List.flatMap_cons, List.cons_append, List.append_assoc] using
      AreSpelledBy.field ⟨nonempty, point, opening, closing⟩ spelled

/-- No piece between points has a point. -/
theorem point_notMem_of_mem_splitOn {cs piece : List Char} (mem : piece ∈ cs.splitOn '.') :
    '.' ∉ piece := by
  induction cs generalizing piece with
  | nil =>
    rw [List.splitOn_nil, List.mem_singleton] at mem
    simp [mem]
  | cons c cs ih =>
    rw [List.splitOn_cons_eq_if_modifyHead] at mem
    split at mem
    · rcases List.mem_cons.1 mem with rfl | mem
      · exact List.not_mem_nil
      · exact ih mem
    · next other =>
      obtain ⟨first, rest, pieces⟩ := List.exists_cons_of_ne_nil (List.splitOn_ne_nil '.' cs)
      rw [pieces, List.modifyHead_cons] at mem
      rw [pieces] at ih
      rcases List.mem_cons.1 mem with rfl | mem
      · rw [List.mem_cons, not_or]
        exact ⟨fun same => other (same ▸ beq_self_eq_true _), ih List.mem_cons_self⟩
      · exact ih (List.mem_cons_of_mem _ mem)

/-- Characters without points stay in front of the first piece. -/
theorem splitOn_append_of_notMem {before cs : List Char} (points : '.' ∉ before) :
    (before ++ cs).splitOn '.' = (cs.splitOn '.').modifyHead (before ++ ·) := by
  induction before with
  | nil => exact (congrFun List.modifyHead_id _).symm
  | cons c before ih =>
    rw [List.mem_cons, not_or] at points
    have other : ¬(c == '.') = true := by simpa using Ne.symm points.1
    rw [List.cons_append, List.splitOn_cons_eq_if_modifyHead, if_neg other, ih points.2,
      List.modifyHead_modifyHead]
    rfl

/-- Pieces between points are the first piece, and a point in front of each of the others. -/
theorem intercalate_point_cons (first : List Char) (rest : List (List Char)) :
    ['.'].intercalate (first :: rest) = first ++ rest.flatMap fun piece => '.' :: piece := by
  induction rest generalizing first with
  | nil => rw [List.intercalate_singleton, List.flatMap_nil, List.append_nil]
  | cons second rest ih =>
    rw [List.intercalate_cons_cons, ih, List.flatMap_cons, List.append_assoc]
    rfl

/-- What spells steps is taken apart at its points into indexes and segments that are read as the
steps. -/
theorem AreSpelledBy.pieces {steps : List Step} {cs : List Char} (spelled : AreSpelledBy steps cs) :
    ∃ first rest positions others, cs.splitOn '.' = first :: rest ∧
      indexes none first = .ok positions ∧ segments rest = .ok others ∧
      steps = positions.map .index ++ others := by
  induction spelled with
  | nil => exact ⟨[], [], [], [], rfl, rfl, rfl, rfl⟩
  | @field name steps cs isName _ ih =>
    obtain ⟨first, rest, positions, others, split, indexed, read, rfl⟩ := ih
    refine ⟨[], (name.toList ++ first) :: rest, [], .field name :: (positions.map .index ++ others),
      ?_, rfl, ?_, rfl⟩
    · rw [List.splitOn_cons_eq_if_modifyHead, if_pos (beq_self_eq_true _),
        splitOn_append_of_notMem isName.2.1, split]
      rfl
    · have segment := segment_eq_ok_iff.2 ⟨⟨isName.1, isName.2.2⟩, first, rfl, indexed⟩
      exact bind_eq_ok_iff.2 ⟨_, segment, bind_eq_ok_iff.2 ⟨_, read, rfl⟩⟩
  | @index n steps cs zeros small _ ih =>
    obtain ⟨first, rest, positions, others, split, indexed, read, rfl⟩ := ih
    have known : position (List.replicate zeros '0' ++ Number.digitsOf n) = .ok n :=
      position_eq_ok_iff.2 ⟨small, zeros, rfl⟩
    have digital {c : Char} (mem : c ∈ List.replicate zeros '0' ++ Number.digitsOf n) :
        c.isDigit = true := Number.isDigit_of_mem_zeros_append mem
    generalize List.replicate zeros '0' ++ Number.digitsOf n = digits at known digital ⊢
    have closing : ']' ∉ digits := fun mem => Bool.false_ne_true (digital mem)
    have point : '.' ∉ '[' :: (digits ++ [']']) := by
      rw [List.mem_cons, List.mem_append, List.mem_singleton]
      rintro (same | mem | same)
      · cases same
      · exact Bool.false_ne_true (digital mem)
      · cases same
    refine ⟨'[' :: (digits ++ [']']) ++ first, rest, n :: positions, others, ?_, ?_, read, rfl⟩
    · have whole : '[' :: (digits ++ ']' :: cs) = '[' :: (digits ++ [']']) ++ cs := by simp
      rw [whole, splitOn_append_of_notMem point, split]
      rfl
    · have behind : '[' :: (digits ++ [']']) ++ first = '[' :: (digits ++ ']' :: first) := by simp
      rw [behind, indexes, if_pos rfl, indexes_some_append closing, List.reverse_nil,
        List.nil_append, known, indexed]
      rfl

/-! ### Paths -/

variable {text : String} {path : Path}

/-- **The parser accepts exactly the grammar**: a text is parsed as a path exactly if it spells the
path. -/
theorem parse_eq_ok_iff : parse text = .ok path ↔ path.IsSpelledBy text := by
  constructor
  · intro parses
    obtain ⟨first, rest, positions, steps, pieces, read, read', same⟩ := pieces_of_parse parses
    have points : ∀ piece ∈ first :: rest, '.' ∉ piece := fun piece mem =>
      point_notMem_of_mem_splitOn (pieces.symm ▸ mem)
    rw [List.forall_mem_cons] at points
    obtain ⟨⟨nonempty, opening, closing⟩, tail, rfl, indexed⟩ := segment_eq_ok_iff.1 read
    have point : '.' ∉ path.root.toList := fun mem => points.1 (List.mem_append_left _ mem)
    have spelled := (areSpelledBy_of_indexes indexed).append
      (areSpelledBy_of_segments points.2 read')
    refine ⟨⟨nonempty, point, opening, closing⟩, _, ?_, same ▸ spelled⟩
    have joined : ['.'].intercalate (text.toList.splitOn '.') = text.toList :=
      List.intercalate_splitOn '.'
    rw [pieces, intercalate_point_cons, List.append_assoc] at joined
    exact joined.symm
  · rintro ⟨isName, cs, whole, spelled⟩
    obtain ⟨first, rest, positions, others, split, indexed, read, same⟩ := spelled.pieces
    have nonempty : ¬text.isEmpty = true := by
      rw [String.isEmpty_iff]
      rintro rfl
      exact isName.1 (List.append_eq_nil_iff.1 whole.symm).1
    have pieces : text.toList.splitOn '.' = (path.root.toList ++ first) :: rest := by
      rw [whole, splitOn_append_of_notMem isName.2.1, split]
      rfl
    have segment := segment_eq_ok_iff.2 ⟨⟨isName.1, isName.2.2⟩, first, rfl, indexed⟩
    rw [parse, if_neg nonempty, pieces]
    obtain ⟨root, steps⟩ := path
    cases same
    exact bind_eq_ok_iff.2 ⟨_, segment, bind_eq_ok_iff.2 ⟨_, read, rfl⟩⟩

/-! ### Leading zeros -/

/-- Whether digits begin with a zero that another digit follows. -/
def isPadded : List Char → Bool
  | '0' :: digit :: _ => digit.isDigit
  | _ => false

/-- Whether an index in a text has **leading zeros**. -/
def hasPaddedIndex : List Char → Bool
  | [] => false
  | c :: cs => (c == '[' && isPadded cs) || hasPaddedIndex cs

/-- A text without leading zeros ends in texts without leading zeros. -/
theorem hasPaddedIndex_of_append (before : List Char) {cs : List Char}
    (plain : hasPaddedIndex (before ++ cs) = false) : hasPaddedIndex cs = false := by
  induction before with
  | nil => exact plain
  | cons c before ih =>
    rw [List.cons_append, hasPaddedIndex, Bool.or_eq_false_iff] at plain
    exact ih plain.2

/-- Steps that are spelled without leading zeros are spelled by their text. -/
theorem AreSpelledBy.eq_text {steps : List Step} {cs : List Char} (spelled : AreSpelledBy steps cs)
    (plain : hasPaddedIndex cs = false) : cs = (String.join (steps.map Step.text)).toList := by
  induction spelled with
  | nil => rfl
  | @field name steps cs _ _ ih =>
    have behind := ih (hasPaddedIndex_of_append ('.' :: name.toList) plain)
    rw [List.map_cons, String.join_cons, Step.text, String.toList_append, String.toList_append,
      ← behind]
    rfl
  | @index n steps cs zeros _ _ ih =>
    cases zeros with
    | zero =>
      have plain' : hasPaddedIndex ('[' :: (Number.digitsOf n ++ [']']) ++ cs) = false := by
        simpa using plain
      have behind := ih (hasPaddedIndex_of_append _ plain')
      rw [List.map_cons, String.join_cons, Step.text, String.toList_append, String.toList_append,
        String.toList_append, ← behind, Number.toList_natText]
      simp
    | succ zeros =>
      -- Behind the first zero there is another one or the numeral.
      obtain ⟨digit, after, digits⟩ := List.exists_cons_of_ne_nil
        (List.append_ne_nil_of_right_ne_nil (List.replicate zeros '0') (Number.digitsOf_ne_nil n))
      have digital : digit.isDigit = true :=
        Number.isDigit_of_mem_zeros_append (digits ▸ List.mem_cons_self)
      rw [List.replicate_succ, List.cons_append, digits, hasPaddedIndex, List.cons_append,
        List.cons_append, isPadded, digital] at plain
      cases plain

/-- **Without leading zeros a text is the text of its path.** -/
theorem eq_text_of_parse (parses : parse text = .ok path)
    (plain : hasPaddedIndex text.toList = false) : text = path.text := by
  obtain ⟨_, cs, whole, spelled⟩ := parse_eq_ok_iff.1 parses
  rw [whole] at plain
  have behind := spelled.eq_text (hasPaddedIndex_of_append _ plain)
  rw [← String.toList_inj, whole, behind, Path.text, String.toList_append]

end Path

end ItemExpr
