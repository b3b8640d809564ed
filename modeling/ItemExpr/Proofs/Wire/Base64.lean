import ItemExpr.Base64
import ItemExpr.Proofs.Compile.Phrase
import Mathlib.Data.List.Basic
import Mathlib.Tactic.SplitIfs

/-! # Base64 is one text for each byte string

Decoding accepts exactly what encoding gives: a text is decoded to a byte string if and only if it
is the text of that byte string (`decode_eq_ok_iff`). The symbols of both are related group by group
(`decodeGroups_encodeSymbols`, `eq_encodeSymbols_of_decodeGroups`), and as symbols are ASCII the
text is determined by its bytes. -/

namespace ItemExpr.Base64

open Compile

/-! ### Symbols -/

/-- The value of the symbol of a value. -/
theorem valueOf?_symbolOf {value : Nat} (small : value < 64) :
    valueOf? (symbolOf value) = some value := by
  revert value
  decide

/-- The padding is the symbol of no value. -/
theorem symbolOf_ne_pad {value : Nat} (small : value < 64) : symbolOf value ≠ pad := by
  revert value
  decide

/-- Symbols are ASCII. -/
theorem symbolOf_lt {value : Nat} (small : value < 64) : (symbolOf value).toNat < 128 := by
  revert value
  decide

/-- A symbol is the symbol of its value. -/
theorem eq_symbolOf_of_valueOf? {symbol : UInt8} {value : Nat}
    (found : valueOf? symbol = some value) : value < 64 ∧ symbol = symbolOf value := by
  have small := symbol.toNat_lt
  simp only [valueOf?] at found
  rw [← UInt8.toNat_inj, symbolOf, UInt8.toNat_ofNat']
  split_ifs at found <;> cases found <;> split_ifs <;> omega

/-- A symbol with a value is the symbol of that value. -/
theorem value_eq_ok {offset found : Nat} {symbol : UInt8}
    (reads : value offset symbol = .ok found) : found < 64 ∧ symbol = symbolOf found := by
  unfold value at reads
  split at reads
  · next known =>
    cases reads
    exact eq_symbolOf_of_valueOf? known
  · cases reads

@[simp] theorem value_symbolOf {offset found : Nat} (small : found < 64) :
    value offset (symbolOf found) = .ok found := by
  rw [value, valueOf?_symbolOf small]

/-! ### Groups of three bytes -/

/-- The bytes of the values of three bytes are these bytes. -/
theorem fullGroup_values (a b c : UInt8) :
    let n := (a.toNat * 256 + b.toNat) * 256 + c.toNat
    fullGroup (n / 262144) (n / 4096 % 64) (n / 64 % 64) (n % 64) = [a, b, c] := by
  have := a.toNat_lt
  have := b.toNat_lt
  have := c.toNat_lt
  simp only [fullGroup, List.cons.injEq, and_true, ← UInt8.toNat_inj, UInt8.toNat_ofNat']
  omega

/-- The symbols of the bytes of four values are the symbols of these values. -/
theorem encodeSymbols_fullGroup {w x y z : Nat} (w_lt : w < 64) (x_lt : x < 64) (y_lt : y < 64)
    (z_lt : z < 64) (rest : Bytes) :
    encodeSymbols (fullGroup w x y z ++ rest) =
      symbolOf w :: symbolOf x :: symbolOf y :: symbolOf z :: encodeSymbols rest := by
  have first : (w * 4 + x / 16) % 256 = w * 4 + x / 16 := by omega
  have second : (x % 16 * 16 + y / 4) % 256 = x % 16 * 16 + y / 4 := by omega
  have third : (y % 4 * 64 + z) % 256 = y % 4 * 64 + z := by omega
  have joined : ((w * 4 + x / 16) * 256 + (x % 16 * 16 + y / 4)) * 256 + (y % 4 * 64 + z) =
      ((w * 64 + x) * 64 + y) * 64 + z := by omega
  have w_eq : (((w * 64 + x) * 64 + y) * 64 + z) / 262144 = w := by omega
  have x_eq : (((w * 64 + x) * 64 + y) * 64 + z) / 4096 % 64 = x := by omega
  have y_eq : (((w * 64 + x) * 64 + y) * 64 + z) / 64 % 64 = y := by omega
  have z_eq : (((w * 64 + x) * 64 + y) * 64 + z) % 64 = z := by omega
  simp only [fullGroup, List.cons_append, List.nil_append, encodeSymbols, UInt8.toNat_ofNat',
    Nat.reducePow, first, second, third, joined, w_eq, x_eq, y_eq, z_eq]

/-! ### Groups of one and of two bytes -/

/-- The byte of the values of a byte is this byte. -/
theorem oneByte_values (a : UInt8) : UInt8.ofNat (a.toNat / 4 * 4 + a.toNat % 4 * 16 / 16) = a := by
  have := a.toNat_lt
  rw [← UInt8.toNat_inj, UInt8.toNat_ofNat']
  omega

/-- The symbols of the byte of two values are the symbols of these values, if the bits that the byte
does not have are zero. -/
theorem encodeSymbols_oneByte {w x : Nat} (w_lt : w < 64) (x_lt : x < 64) (unused : x % 16 = 0) :
    encodeSymbols [UInt8.ofNat (w * 4 + x / 16)] = [symbolOf w, symbolOf x, pad, pad] := by
  have first : (w * 4 + x / 16) % 256 = w * 4 + x / 16 := by omega
  have w_eq : (w * 4 + x / 16) / 4 = w := by omega
  have x_eq : (w * 4 + x / 16) % 4 * 16 = x := by omega
  simp only [encodeSymbols, UInt8.toNat_ofNat', Nat.reducePow, first, w_eq, x_eq]

/-- The bytes of the values of two bytes are these bytes. -/
theorem twoBytes_values (a b : UInt8) :
    let n := a.toNat * 256 + b.toNat
    [UInt8.ofNat (n / 1024 * 4 + n / 16 % 64 / 16),
      UInt8.ofNat (n / 16 % 64 % 16 * 16 + n % 16 * 4 / 4)] = [a, b] := by
  have := a.toNat_lt
  have := b.toNat_lt
  simp only [List.cons.injEq, and_true, ← UInt8.toNat_inj, UInt8.toNat_ofNat']
  omega

/-- The symbols of the bytes of three values are the symbols of these values, if the bits that the
bytes do not have are zero. -/
theorem encodeSymbols_twoBytes {w x y : Nat} (w_lt : w < 64) (x_lt : x < 64) (y_lt : y < 64)
    (unused : y % 4 = 0) :
    encodeSymbols [UInt8.ofNat (w * 4 + x / 16), UInt8.ofNat (x % 16 * 16 + y / 4)] =
      [symbolOf w, symbolOf x, symbolOf y, pad] := by
  have first : (w * 4 + x / 16) % 256 = w * 4 + x / 16 := by omega
  have second : (x % 16 * 16 + y / 4) % 256 = x % 16 * 16 + y / 4 := by omega
  have w_eq : ((w * 4 + x / 16) * 256 + (x % 16 * 16 + y / 4)) / 1024 = w := by omega
  have x_eq : ((w * 4 + x / 16) * 256 + (x % 16 * 16 + y / 4)) / 16 % 64 = x := by omega
  have y_eq : ((w * 4 + x / 16) * 256 + (x % 16 * 16 + y / 4)) % 16 * 4 = y := by omega
  simp only [encodeSymbols, UInt8.toNat_ofNat', Nat.reducePow, first, second, w_eq, x_eq, y_eq]

/-! ### The last group -/

/-- Padding is passed over from the third place on. -/
theorem scanLast_replicate_pad {offset position count : Nat} {padAt : Option Nat}
    (late : 2 ≤ position) :
    scanLast offset position padAt (List.replicate count pad) = .ok ([], count) := by
  induction count generalizing position padAt with
  | zero => rfl
  | succ count ih =>
    have inside : ¬position < 2 := by omega
    have later : 2 ≤ position + 1 := by omega
    simp only [List.replicate_succ, scanLast, if_true, if_neg inside, ih later]
    rfl

/-- Symbols of values in front of padding are read as these values. -/
theorem scanLast_symbols (offset count : Nat) {position : Nat} {values : List Nat}
    (small : ∀ v ∈ values, v < 64) (late : 2 ≤ position + values.length) :
    scanLast offset position none (values.map symbolOf ++ List.replicate count pad) =
      .ok (values, count) := by
  induction values generalizing position with
  | nil => exact scanLast_replicate_pad late
  | cons v values ih =>
    rw [List.forall_mem_cons] at small
    rw [List.length_cons] at late
    simp only [List.map_cons, List.cons_append, scanLast, if_neg (symbolOf_ne_pad small.1),
      value_symbolOf small.1, ih small.2 (by omega : 2 ≤ position + 1 + values.length)]
    rfl

/-- What is read as values and padding are the symbols of the values in front of the padding. -/
theorem scanLast_eq_ok {offset position count : Nat} {padAt : Option Nat} {symbols : List UInt8}
    {values : List Nat} (reads : scanLast offset position padAt symbols = .ok (values, count)) :
    (∀ v ∈ values, v < 64) ∧ symbols = values.map symbolOf ++ List.replicate count pad ∧
      (padAt.isSome = true → values = []) := by
  induction symbols generalizing position padAt values count with
  | nil =>
    cases reads
    exact ⟨nofun, rfl, fun _ => rfl⟩
  | cons symbol symbols ih =>
    unfold scanLast at reads
    split at reads
    · next padding =>
      split at reads
      · cases reads
      · obtain ⟨⟨found, pads⟩, scanned, same⟩ := bind_eq_ok_iff.1 reads
        cases same
        -- Padding has begun, so that no value follows.
        obtain ⟨_, behind, none⟩ := ih scanned
        have alone : values = [] := none (by cases padAt <;> rfl)
        subst alone
        refine ⟨nofun, ?_, fun _ => rfl⟩
        rw [padding, behind]
        rfl
    · split at reads
      · cases reads
      · obtain ⟨first, known, reads⟩ := bind_eq_ok_iff.1 reads
        obtain ⟨⟨found, pads⟩, scanned, same⟩ := bind_eq_ok_iff.1 reads
        cases same
        obtain ⟨small, same⟩ := value_eq_ok known
        obtain ⟨others, behind, _⟩ := ih scanned
        refine ⟨List.forall_mem_cons.2 ⟨small, others⟩, ?_, nofun⟩
        rw [same, behind]
        rfl

/-- The last group of the symbols of a byte string is read as its bytes. -/
theorem decodeLast_encodeSymbols (bytes : Bytes) (offset : Nat) (short : bytes.length ≤ 3) :
    decodeLast offset (encodeSymbols bytes) = .ok bytes := by
  match bytes, short with
  | [], _ => rfl
  | [a], _ =>
    have bound := a.toNat_lt
    have small : ∀ v ∈ [a.toNat / 4, a.toNat % 4 * 16], v < 64 := by
      simp only [List.forall_mem_cons]
      exact ⟨by omega, by omega, nofun⟩
    have scanned : scanLast offset 0 none (encodeSymbols [a]) = .ok (_, 2) :=
      scanLast_symbols offset 2 small (by simp)
    have unused : ¬a.toNat % 4 * 16 % 16 ≠ 0 := by omega
    simp only [decodeLast, scanned, bind, Except.bind]
    rw [if_neg (by decide), if_neg unused, oneByte_values]
  | [a, b], _ =>
    have := a.toNat_lt
    have := b.toNat_lt
    let n := a.toNat * 256 + b.toNat
    have small : ∀ v ∈ [n / 1024, n / 16 % 64, n % 16 * 4], v < 64 := by
      simp only [List.forall_mem_cons, n]
      exact ⟨by omega, by omega, by omega, nofun⟩
    have scanned : scanLast offset 0 none (encodeSymbols [a, b]) = .ok (_, 1) :=
      scanLast_symbols offset 1 small (by simp)
    have unused : ¬n % 16 * 4 % 4 ≠ 0 := by omega
    simp only [decodeLast, scanned, bind, Except.bind]
    rw [if_neg (by decide), if_neg unused, twoBytes_values]
  | [a, b, c], _ =>
    have := a.toNat_lt
    have := b.toNat_lt
    have := c.toNat_lt
    let n := (a.toNat * 256 + b.toNat) * 256 + c.toNat
    have small : ∀ v ∈ [n / 262144, n / 4096 % 64, n / 64 % 64, n % 64], v < 64 := by
      simp only [List.forall_mem_cons, n]
      exact ⟨by omega, by omega, by omega, by omega, nofun⟩
    have scanned : scanLast offset 0 none (encodeSymbols [a, b, c]) = .ok (_, 0) :=
      scanLast_symbols offset 0 small (by simp)
    simp only [decodeLast, scanned, bind, Except.bind]
    rw [if_neg (by decide), fullGroup_values]

/-- A last group of at most four symbols is read as the bytes that it is the symbols of. -/
theorem decodeLast_eq_ok {offset : Nat} {group : List UInt8} {bytes : Bytes}
    (short : group.length ≤ 4) (reads : decodeLast offset group = .ok bytes) :
    group = encodeSymbols bytes := by
  unfold decodeLast at reads
  obtain ⟨⟨values, pads⟩, scanned, reads⟩ := bind_eq_ok_iff.1 reads
  obtain ⟨small, rfl, -⟩ := scanLast_eq_ok scanned
  match values, small, short, reads with
  | [], _, _, reads =>
    cases pads with
    | zero => cases reads; rfl
    | succ pads => cases reads
  | [_], _, _, reads => cases reads
  | [w, x], small, _, reads =>
    simp only [List.forall_mem_cons] at small
    simp only at reads
    split_ifs at reads with padded unused
    cases reads
    rw [Decidable.not_not] at padded unused
    rw [padded, encodeSymbols_oneByte small.1 small.2.1 unused]
    rfl
  | [w, x, y], small, _, reads =>
    simp only [List.forall_mem_cons] at small
    simp only at reads
    split_ifs at reads with padded unused
    cases reads
    rw [Decidable.not_not] at padded unused
    rw [padded, encodeSymbols_twoBytes small.1 small.2.1 small.2.2.1 unused]
    rfl
  | w :: x :: y :: z :: rest, small, short, reads =>
    simp only [List.forall_mem_cons] at small
    simp only at reads
    split_ifs at reads with padded
    cases reads
    -- Four symbols are all that a group holds.
    have alone : rest = [] := by
      simp only [List.length_append, List.length_map, List.length_cons] at short
      exact List.eq_nil_of_length_eq_zero (by omega)
    rw [Decidable.not_not] at padded
    rw [alone, padded, ← List.append_nil (fullGroup w x y z),
      encodeSymbols_fullGroup small.1 small.2.1 small.2.2.1 small.2.2.2.1]
    rfl

/-! ### All groups -/

/-- Only the empty byte string has no symbols. -/
theorem encodeSymbols_eq_nil {bytes : Bytes} (none : encodeSymbols bytes = []) : bytes = [] := by
  fun_cases encodeSymbols bytes with
  | case1 => rfl
  | case2 | case3 | case4 => simp [encodeSymbols] at none

/-- The symbols of a byte string are read as the byte string, wherever they start. -/
theorem decodeGroups_encodeSymbols (bytes : Bytes) (offset : Nat) :
    decodeGroups offset (encodeSymbols bytes) = .ok bytes := by
  match bytes with
  | [] => rfl
  | [a] => exact decodeLast_encodeSymbols [a] offset (by simp)
  | [a, b] => exact decodeLast_encodeSymbols [a, b] offset (by simp)
  | a :: b :: c :: rest =>
    have ih := decodeGroups_encodeSymbols rest (offset + 4)
    cases behind : encodeSymbols rest with
    | nil =>
      -- No group follows, so that this one is read as the last.
      cases encodeSymbols_eq_nil behind
      exact decodeLast_encodeSymbols [a, b, c] offset (by simp)
    | cons e symbols =>
      have a_lt := a.toNat_lt
      have b_lt := b.toNat_lt
      have c_lt := c.toNat_lt
      have first : ((a.toNat * 256 + b.toNat) * 256 + c.toNat) / 262144 < 64 := by omega
      have reduced (n : Nat) : n % 64 < 64 := Nat.mod_lt n (by omega)
      have values := fullGroup_values a b c
      rw [behind] at ih
      simp only [encodeSymbols, behind, decodeGroups, value_symbolOf first,
        value_symbolOf (reduced _), ih, bind, Except.bind]
      simp only at values
      rw [values]
      rfl

/-- Groups of symbols are read as the bytes that they are the symbols of. -/
theorem eq_encodeSymbols_of_decodeGroups {offset : Nat} {symbols : List UInt8} {bytes : Bytes}
    (reads : decodeGroups offset symbols = .ok bytes) : symbols = encodeSymbols bytes := by
  fun_induction decodeGroups offset symbols generalizing bytes with
  | case1 offset a b c d e rest ih =>
    obtain ⟨w, a_eq, reads⟩ := bind_eq_ok_iff.1 reads
    obtain ⟨x, b_eq, reads⟩ := bind_eq_ok_iff.1 reads
    obtain ⟨y, c_eq, reads⟩ := bind_eq_ok_iff.1 reads
    obtain ⟨z, d_eq, reads⟩ := bind_eq_ok_iff.1 reads
    obtain ⟨tail, behind, same⟩ := bind_eq_ok_iff.1 reads
    cases same
    obtain ⟨w_lt, rfl⟩ := value_eq_ok a_eq
    obtain ⟨x_lt, rfl⟩ := value_eq_ok b_eq
    obtain ⟨y_lt, rfl⟩ := value_eq_ok c_eq
    obtain ⟨z_lt, rfl⟩ := value_eq_ok d_eq
    rw [encodeSymbols_fullGroup w_lt x_lt y_lt z_lt, ← ih behind]
  | case2 offset last short =>
    refine decodeLast_eq_ok ?_ reads
    match last, short with
    | [], _ | [_], _ | [_, _], _ | [_, _, _], _ | [_, _, _, _], _ => simp
    | a :: b :: c :: d :: e :: rest, short => exact absurd rfl (short a b c d e rest)

/-! ### Texts -/

/-- A byte string has a multiple of four symbols. -/
theorem length_encodeSymbols (bytes : Bytes) : (encodeSymbols bytes).length % 4 = 0 := by
  fun_induction encodeSymbols bytes with
  | case1 => rfl
  | case2 | case3 => simp only [List.length_cons, List.length_nil]
  | case4 a b c rest n ih =>
    simp only [List.length_cons]
    omega

/-- The symbols of a byte string are ASCII. -/
theorem encodeSymbols_lt (bytes : Bytes) : ∀ symbol ∈ encodeSymbols bytes, symbol.toNat < 128 := by
  have reduced (n : Nat) : (symbolOf (n % 64)).toNat < 128 :=
    symbolOf_lt (Nat.mod_lt n (by omega))
  fun_induction encodeSymbols bytes with
  | case1 => nofun
  | case2 a n =>
    have bound := a.toNat_lt
    simp only [List.forall_mem_cons]
    exact ⟨symbolOf_lt (by omega), symbolOf_lt (by omega), by decide, by decide, nofun⟩
  | case3 a b n =>
    have a_lt := a.toNat_lt
    have b_lt := b.toNat_lt
    simp only [List.forall_mem_cons]
    exact ⟨symbolOf_lt (by omega), reduced _, symbolOf_lt (by omega), by decide, nofun⟩
  | case4 a b c rest n ih =>
    have a_lt := a.toNat_lt
    have b_lt := b.toNat_lt
    have c_lt := c.toNat_lt
    simp only [List.forall_mem_cons]
    exact ⟨symbolOf_lt (by omega), reduced _, reduced _, reduced _, ih⟩

/-- The bytes of a text of ASCII characters are their codes. -/
theorem toUTF8_ofList {symbols : List UInt8} (ascii : ∀ symbol ∈ symbols, symbol.toNat < 128) :
    (String.ofList (symbols.map fun symbol => Char.ofNat symbol.toNat)).toUTF8.data.toList =
      symbols := by
  have alone : ∀ symbol ∈ symbols, String.utf8EncodeChar (Char.ofNat symbol.toNat) = [symbol] := by
    intro symbol mem
    have small := ascii symbol mem
    have valid : symbol.toNat.isValidChar := .inl (by omega)
    have code : (Char.ofNat symbol.toNat).val.toNat = symbol.toNat := by
      rw [Char.ofNat, dif_pos valid]
      exact UInt32.toNat_ofNatLT ..
    rw [String.utf8EncodeChar, code, if_pos (by omega), UInt8.ofNat_toNat]
  rw [String.toUTF8, String.toByteArray_ofList, List.utf8Encode, List.data_toByteArray,
    List.flatMap_map, List.flatMap_congr alone, List.flatMap_singleton']

/-- The bytes of the text of a byte string are its symbols. -/
theorem toUTF8_encode (bytes : Bytes) : (encode bytes).toUTF8.data.toList = encodeSymbols bytes :=
  toUTF8_ofList (encodeSymbols_lt bytes)

/-- A text is determined by its bytes. -/
theorem toUTF8_inj {text other : String}
    (same : text.toUTF8.data.toList = other.toUTF8.data.toList) : text = other := by
  rw [← String.toByteArray_inj]
  exact ByteArray.ext (Array.toList_inj.1 same)

/-- The text of a byte string has no stray byte at its end. -/
theorem strayLast?_encodeSymbols (bytes : Bytes) : strayLast? (encodeSymbols bytes) = none := by
  have whole := length_encodeSymbols bytes
  exact if_neg (by omega)

/-- **Base64 is one text for each byte string**: a text is decoded to a byte string exactly if it is
the text of that byte string. -/
theorem decode_eq_ok_iff {text : String} {bytes : Bytes} :
    decode text = .ok bytes ↔ text = encode bytes := by
  constructor
  · intro reads
    unfold decode at reads
    simp only at reads
    split at reads
    · cases reads
    · exact toUTF8_inj ((eq_encodeSymbols_of_decodeGroups reads).trans (toUTF8_encode bytes).symm)
  · rintro rfl
    simp only [decode, toUTF8_encode, strayLast?_encodeSymbols]
    exact decodeGroups_encodeSymbols bytes 0

end ItemExpr.Base64
