import ItemExpr.Json.Printer
import ItemExpr.Json.Reader
import ItemExpr.Proofs.Json.Settled
import ItemExpr.Proofs.Path.Grammar

/-! # Printed documents are read back

A document whose numbers are 64-bit integers is read back from its text, whole and with nothing
behind it (`read_print`). The text of a document is cut into the tokens that its tree says
(`cuts_print`): a character that a string cannot hold comes back from its escape, and a number ends
where a comma or a bracket follows. The machine takes these tokens wherever a document is expected
and goes on behind them (`run_tokens`). -/

namespace ItemExpr.Json

/-- Whether all numbers in a document are **integers of 64 bits**, with or without a sign. -/
inductive Integral : Json → Prop
  /-- The literal `null`. -/
  | null : Integral .null
  /-- A truth value. -/
  | bool (flag : Bool) : Integral (.bool flag)
  /-- An integer of 64 bits. -/
  | number {value : Int} (low : -(Number.twoPow 63 : Int) ≤ value)
    (high : value < Number.wordBound) :
    Integral (.number (.integer value))
  /-- A text. -/
  | string (text : String) : Integral (.string text)
  /-- An array of such documents. -/
  | array {items : List Json} (each : ∀ item ∈ items, Integral item) : Integral (.array items)
  /-- An object of such documents. -/
  | object {members : List (String × Json)} (each : ∀ member ∈ members, Integral member.2) :
    Integral (.object members)

/-! ### Strings -/

/-- The piece that a character is printed as. -/
def pieceOf (c : Char) : Piece := if c < ' ' then .unit c.toNat else .char c

/-- A control has four digits, the first two of which are zeros. -/
theorem padded_control : ∀ n < 32,
    Text.padded 16 4 n = ['0', '0', Nat.digitChar (n / 16), Nat.digitChar (n % 16)] := by decide

/-- The digits of a control are read as its number. -/
theorem unit?_control : ∀ n < 32,
    unit? '0' '0' (Nat.digitChar (n / 16)) (Nat.digitChar (n % 16)) = some n := by decide

theorem toNat_lt_of_control {c : Char} (control : c < ' ') : c.toNat < 32 :=
  UInt32.lt_iff_toNat_lt.1 control

/-- A printed character is read as its piece. -/
theorem readPieces_printChar (before : List Piece) (c : Char) (rest : List Char) :
    readPieces before (printChar c ++ rest) = readPieces (pieceOf c :: before) rest := by
  by_cases quote : c = '"'
  · subst quote
    simp [printChar, pieceOf, readPieces, escapedChar?]
  by_cases backslash : c = '\\'
  · subst backslash
    simp [printChar, pieceOf, readPieces, escapedChar?]
  by_cases control : c < ' '
  · have small := toNat_lt_of_control control
    simp [printChar, pieceOf, readPieces, quote, backslash, control, padded_control _ small,
      unit?_control _ small]
  · simp [printChar, pieceOf, readPieces, quote, backslash, control]

/-- Printed characters are read as their pieces, up to the quote behind them. -/
theorem readPieces_print (before : List Piece) (text rest : List Char) :
    readPieces before (text.flatMap printChar ++ '"' :: rest) =
      some (before.reverse ++ text.map pieceOf, rest) := by
  induction text generalizing before with
  | nil => simp [readPieces]
  | cons c text ih =>
    rw [List.flatMap_cons, List.append_assoc, readPieces_printChar, ih]
    simp

/-- A unit that is no surrogate stands for its character. -/
theorem charsOfPieces?_unit {unit : Nat} (control : unit < 32) (rest : List Piece) :
    charsOfPieces? (.unit unit :: rest) = (charsOfPieces? rest).map (Char.ofNat unit :: ·) := by
  have high : isHighSurrogate unit = false := by
    simp [isHighSurrogate]
    omega
  have low : isLowSurrogate unit = false := by
    simp [isLowSurrogate]
    omega
  cases rest with
  | nil => simp [charsOfPieces?, high, low]
  | cons next rest => cases next <;> simp [charsOfPieces?, high, low]

/-- The pieces of characters stand for these. -/
theorem charsOfPieces?_map_pieceOf (text : List Char) :
    charsOfPieces? (text.map pieceOf) = some text := by
  induction text with
  | nil => rfl
  | cons c text ih =>
    rw [List.map_cons]
    by_cases control : c < ' '
    · rw [pieceOf, if_pos control, charsOfPieces?_unit (toNat_lt_of_control control), ih]
      simp
    · rw [pieceOf, if_neg control, charsOfPieces?, ih]
      rfl

/-- A printed string is read back. -/
theorem readString_print (text : String) (rest : List Char) :
    readString (text.toList.flatMap printChar ++ '"' :: rest) = some (some text, rest) := by
  rw [readString, readPieces_print, Option.map_some]
  simp [charsOfPieces?_map_pieceOf]

/-! ### Numbers -/

/-- Whether a number ends where a text goes on: with the end, a comma or a closing bracket. -/
def Apart (rest : List Char) : Prop := ∀ c ∈ rest.head?, c = ',' ∨ c = ']' ∨ c = '\x7d'

theorem apart_nil : Apart [] := nofun

/-- Behind a number no digit, point or exponent follows. -/
theorem Apart.ends {rest : List Char} (apart : Apart rest) :
    (∀ c ∈ rest.head?, c.isDigit = false) ∧ readFraction rest = some ([], rest) ∧
      readExponent rest = some (none, rest) := by
  cases rest with
  | nil => exact ⟨nofun, rfl, rfl⟩
  | cons c rest =>
    rcases apart c rfl with rfl | rfl | rfl
    all_goals
      refine ⟨?_, rfl, rfl⟩
      rintro _ ⟨⟩
      rfl

/-- Digits are cut off in front of what is no digit. -/
theorem spanDigits_append {digits rest : List Char} (all : ∀ c ∈ digits, c.isDigit = true)
    (ends : ∀ c ∈ rest.head?, c.isDigit = false) :
    spanDigits (digits ++ rest) = (digits, rest) := by
  rw [spanDigits, List.takeWhile_append_of_pos all, List.dropWhile_append_of_pos all]
  cases rest with
  | nil => simp
  | cons c rest => simp [ends c rfl]

/-- A numeral is a whole part. -/
theorem readWhole_digitsOf (n : Nat) {rest : List Char}
    (ends : ∀ c ∈ rest.head?, c.isDigit = false) :
    readWhole (Number.digitsOf n ++ rest) = some (Number.digitsOf n, rest) := by
  have all : ∀ c ∈ Number.digitsOf n, c.isDigit = true := fun c mem =>
    Number.isDigit_of_mem_digitsOf mem
  by_cases zero : ∃ digits, Number.digitsOf n = '0' :: digits
  · obtain ⟨digits, same⟩ := zero
    -- Only a zero by itself begins with a zero.
    cases digits with
    | nil =>
      have none : spanDigits rest = ([], rest) := @spanDigits_append [] rest nofun ends
      rw [same]
      simp [readWhole, none]
    | cons d digits => exact absurd same (Number.digitsOf_ne_zero_cons n d digits)
  · have cut := spanDigits_append all ends
    have some : Number.digitsOf n ≠ [] := Number.digitsOf_ne_nil n
    unfold readWhole
    split
    · next rest' same =>
      cases digits : Number.digitsOf n with
      | nil => exact absurd digits some
      | cons c cs =>
        rw [digits] at same
        cases same
        exact absurd ⟨cs, digits⟩ zero
    · rw [cut, if_neg (by simpa using some)]

/-- A numeral behind a sign, or without one. -/
theorem readUnsigned_digitsOf (negative : Bool) (n : Nat) {rest : List Char}
    (apart : Apart rest) :
    readUnsigned negative (Number.digitsOf n ++ rest) =
      some (NumberText.draft ⟨negative, Number.digitsOf n, [], none⟩, rest) := by
  obtain ⟨ends, fraction, exponent⟩ := apart.ends
  simp [readUnsigned, readWhole_digitsOf n ends, fraction, exponent]

/-- A numeral is its number, if that fits. -/
theorem draft_digitsOf {n : Nat} (fits : n < Number.wordBound) :
    NumberText.draft ⟨false, Number.digitsOf n, [], none⟩ = .number (.integer n) := by
  simp [NumberText.draft, NumberText.value?, Text.ofDigits_digitsOf, fits]

/-- A numeral behind a minus sign is its negative number, if that fits. -/
theorem draft_neg_digitsOf {n : Nat} (fits : 0 < n ∧ n ≤ Number.twoPow 63) :
    NumberText.draft ⟨true, Number.digitsOf n, [], none⟩ = .number (.integer (-n)) := by
  simp [NumberText.draft, NumberText.value?, Text.ofDigits_digitsOf, fits]

/-- A text that begins with a digit begins with a number. -/
theorem token?_of_isDigit {c : Char} (digit : c.isDigit = true) (rest : List Char) :
    token? c rest =
      (readUnsigned false (c :: rest)).map fun (value, rest) => (.scalar value, rest) := by
  unfold token?
  split
  all_goals first
    | rfl
    | exact absurd digit (by decide)

/-- A digit is no blank. -/
theorem isBlank_of_isDigit {c : Char} (digit : c.isDigit = true) : isBlank c = false := by
  rw [← Bool.not_eq_true]
  intro blank
  simp only [isBlank, Bool.or_eq_true, decide_eq_true_eq] at blank
  rcases blank with ((rfl | rfl) | rfl) | rfl <;> cases digit

/-- The text of an integer of 64 bits is one token. -/
theorem token?_intText {value : Int} (low : -(Number.twoPow 63 : Int) ≤ value)
    (high : value < Number.wordBound) {rest : List Char} (apart : Apart rest) :
    ∃ c cs, (Number.intText value).toList = c :: cs ∧ isBlank c = false ∧
      token? c (cs ++ rest) = some (.scalar (.number (.integer value)), rest) := by
  by_cases negative : value < 0
  · refine ⟨'-', Number.digitsOf value.natAbs, ?_, rfl, ?_⟩
    · rw [Number.intText, if_pos negative, String.toList_append, Number.toList_natText]
      rfl
    · have fits : 0 < value.natAbs ∧ value.natAbs ≤ Number.twoPow 63 := by omega
      have same : -(value.natAbs : Int) = value := by omega
      show (readUnsigned true (Number.digitsOf value.natAbs ++ rest)).map _ = _
      rw [readUnsigned_digitsOf true _ apart, draft_neg_digitsOf fits, same]
      rfl
  · have fits : value.natAbs < Number.wordBound := by omega
    have same : (value.natAbs : Int) = value := by omega
    have text : (Number.intText value).toList = Number.digitsOf value.natAbs := by
      rw [Number.intText, if_neg negative, Number.toList_natText]
    have read := readUnsigned_digitsOf false value.natAbs apart
    rw [draft_digitsOf fits, same] at read
    cases digits : Number.digitsOf value.natAbs with
    | nil => exact absurd digits (Number.digitsOf_ne_nil _)
    | cons c cs =>
      have digit : c.isDigit = true :=
        @Number.isDigit_of_mem_digitsOf value.natAbs c (by simp [digits])
      rw [digits, List.cons_append] at read
      refine ⟨c, cs, text.trans digits, isBlank_of_isDigit digit, ?_⟩
      rw [token?_of_isDigit digit, read]
      rfl

/-! ### The tokens of documents -/

mutual

/-- The **tokens of a document**. -/
def tokens : Json → List Token
  | .null => [.scalar .null]
  | .bool flag => [.scalar (.bool flag)]
  | .number value => [.scalar (.number value)]
  | .string text => [.string (some text)]
  | .array items => .openArray :: ([Token.comma].intercalate (itemTokens items) ++ [.closeArray])
  | .object members =>
    .openObject :: ([Token.comma].intercalate (memberTokens members) ++ [.closeObject])

/-- The tokens of the items of an array. -/
def itemTokens : List Json → List (List Token)
  | [] => []
  | item :: items => tokens item :: itemTokens items

/-- The tokens of the members of an object. -/
def memberTokens : List (String × Json) → List (List Token)
  | [] => []
  | (name, value) :: members =>
    (.string (some name) :: .colon :: tokens value) :: memberTokens members

end

theorem itemTokens_eq_map (items : List Json) : itemTokens items = items.map tokens := by
  induction items with
  | nil => rfl
  | cons item items ih => rw [itemTokens, ih, List.map_cons]

theorem memberTokens_eq_map (members : List (String × Json)) :
    memberTokens members =
      members.map fun member => .string (some member.1) :: .colon :: tokens member.2 := by
  induction members with
  | nil => rfl
  | cons member members ih => rw [memberTokens, ih, List.map_cons]

theorem printItems_eq_map (items : List Json) : printItems items = items.map print := by
  induction items with
  | nil => rfl
  | cons item items ih => rw [printItems, ih, List.map_cons]

theorem printMembers_eq_map (members : List (String × Json)) :
    printMembers members =
      members.map fun member => printString member.1 ++ ":" ++ print member.2 := by
  induction members with
  | nil => rfl
  | cons member members ih => rw [printMembers, ih, List.map_cons]

/-! ### Cutting texts -/

/-- Whether a text is **cut into tokens**, if what comes behind is apart. -/
def Cuts (text : String) (tokens : List Token) : Prop :=
  ∀ rest, Apart rest → Token.ofChars (text.toList ++ rest) = tokens ++ Token.ofChars rest

/-- A token is taken off a text. -/
theorem ofChars_cons {c : Char} {rest after : List Char} {token : Token}
    (visible : isBlank c = false) (found : token? c rest = some (token, after)) :
    Token.ofChars (c :: rest) = token :: Token.ofChars after := by
  rw [Token.ofChars, if_neg (by simp [visible])]
  split
  · next none =>
    rw [found] at none
    cases none
  · next token' after' same =>
    rw [found] at same
    cases same
    rfl

/-- A printed string is one token, whatever comes behind. -/
theorem ofChars_printString (text : String) (rest : List Char) :
    Token.ofChars ((printString text).toList ++ rest) =
      .string (some text) :: Token.ofChars rest := by
  have chars : (printString text).toList ++ rest =
      '"' :: (text.toList.flatMap printChar ++ '"' :: rest) := by
    simp [printString]
  rw [chars]
  refine ofChars_cons rfl ?_
  show (readString (text.toList.flatMap printChar ++ '"' :: rest)).map _ = _
  rw [readString_print, Option.map_some]

/-- A name, a colon and a value. -/
theorem cuts_member (name : String) {value : String} {tokens : List Token}
    (cuts : Cuts value tokens) :
    Cuts (printString name ++ ":" ++ value) (.string (some name) :: .colon :: tokens) := by
  intro rest apart
  rw [String.toList_append, String.toList_append, List.append_assoc, List.append_assoc,
    ofChars_printString]
  have colon : Token.ofChars (':' :: (value.toList ++ rest)) =
      .colon :: Token.ofChars (value.toList ++ rest) := ofChars_cons rfl rfl
  show _ :: Token.ofChars (':' :: (value.toList ++ rest)) = _
  rw [colon, cuts rest apart]
  rfl

/-- Texts with commas between them. -/
theorem cuts_intercalate {α : Type} {text : α → String} {tokens : α → List Token}
    {items : List α} (cuts : ∀ item ∈ items, Cuts (text item) (tokens item)) :
    Cuts (",".intercalate (items.map text)) ([Token.comma].intercalate (items.map tokens)) := by
  induction items with
  | nil =>
    intro rest _
    simp
  | cons item items ih =>
    rw [List.forall_mem_cons] at cuts
    cases items with
    -- There is no comma behind the last item.
    | nil => simpa using cuts.1
    | cons next items =>
      intro rest apart
      have behind : Token.ofChars (',' ::
          ((",".intercalate ((next :: items).map text)).toList ++ rest)) =
          .comma :: ([Token.comma].intercalate ((next :: items).map tokens) ++
            Token.ofChars rest) := by
        rw [ofChars_cons rfl rfl, ih cuts.2 rest apart]
      have first := cuts.1
        (',' :: ((",".intercalate ((next :: items).map text)).toList ++ rest)) (by
          rintro _ ⟨⟩
          exact Or.inl rfl)
      rw [behind] at first
      simpa [String.intercalate_cons_cons, List.intercalate_cons_cons] using first

/-- Printed documents are **cut into their tokens**. -/
theorem cuts_print {document : Json} (integral : document.Integral) :
    Cuts document.print document.tokens := by
  induction integral with
  | null =>
    intro rest _
    exact ofChars_cons rfl rfl
  | bool flag =>
    intro rest _
    cases flag <;> exact ofChars_cons rfl rfl
  | number low high =>
    intro rest apart
    obtain ⟨c, cs, chars, visible, found⟩ := token?_intText low high apart
    show Token.ofChars ((Number.intText _).toList ++ rest) = _
    rw [chars]
    exact ofChars_cons visible found
  | string text =>
    intro rest _
    exact ofChars_printString text rest
  | @array items each ih =>
    intro rest apart
    have inside := cuts_intercalate ih (']' :: rest) (by
      rintro _ ⟨⟩
      exact Or.inr (Or.inl rfl))
    have opening (cs : List Char) : Token.ofChars ('[' :: cs) = .openArray :: Token.ofChars cs :=
      ofChars_cons rfl rfl
    have closing : Token.ofChars (']' :: rest) = .closeArray :: Token.ofChars rest :=
      ofChars_cons rfl rfl
    have chars : (print (.array items)).toList ++ rest =
        '[' :: ((",".intercalate (items.map print)).toList ++ ']' :: rest) := by
      simp [print, printItems_eq_map]
    rw [chars, opening, inside, closing]
    simp [tokens, itemTokens_eq_map]
  | @object members each ih =>
    intro rest apart
    have cuts : ∀ member ∈ members, Cuts (printString member.1 ++ ":" ++ print member.2)
        (.string (some member.1) :: .colon :: tokens member.2) :=
      fun member mem => cuts_member member.1 (ih member mem)
    have inside := cuts_intercalate cuts ('\x7d' :: rest) (by
      rintro _ ⟨⟩
      exact Or.inr (Or.inr rfl))
    have opening (cs : List Char) :
        Token.ofChars ('\x7b' :: cs) = .openObject :: Token.ofChars cs := ofChars_cons rfl rfl
    have closing : Token.ofChars ('\x7d' :: rest) = .closeObject :: Token.ofChars rest :=
      ofChars_cons rfl rfl
    have chars : (print (.object members)).toList ++ rest = '\x7b' ::
        ((",".intercalate (members.map fun member =>
          printString member.1 ++ ":" ++ print member.2)).toList ++ '\x7d' :: rest) := by
      simp [print, printMembers_eq_map]
    rw [chars, opening, inside, closing]
    simp [tokens, memberTokens_eq_map]

/-! ### Taking the tokens -/

/-- Where the first item of an array is expected, items are taken as behind a comma. -/
theorem run_firstItem (item : Json) (items : List Json) (stack : List Frame) (rest : List Token) :
    run (stack, .firstItem) ([Token.comma].intercalate ((item :: items).map tokens) ++ rest) =
      run (.array [] :: stack, .value)
        ([Token.comma].intercalate ((item :: items).map tokens) ++ rest) := by
  cases items <;> cases item <;> rfl

/-- Where the first name of an object is expected, members are taken as behind a comma. -/
theorem run_firstName (member : String × Json) (members : List (String × Json))
    (stack : List Frame) (rest : List Token) :
    run (stack, .firstName) ([Token.comma].intercalate (memberTokens (member :: members)) ++ rest) =
      run (stack, .name [])
        ([Token.comma].intercalate (memberTokens (member :: members)) ++ rest) := by
  cases members <;> rfl

/-- The items of an array, if each is taken where a document is expected. -/
theorem run_items {items : List Json} (nonempty : items ≠ [])
    (each : ∀ item ∈ items, ∀ stack rest,
      run (stack, .value) (item.tokens ++ rest) = run (stack, .after item.draft) rest)
    (stack : List Frame) (before : List Draft) (rest : List Token) :
    run (.array before :: stack, .value)
        ([Token.comma].intercalate (items.map tokens) ++ .closeArray :: rest) =
      run (stack, .after (.array (before.reverse ++ items.map draft) true)) rest := by
  induction items generalizing before with
  | nil => exact absurd rfl nonempty
  | cons item items ih =>
    rw [List.forall_mem_cons] at each
    cases items with
    | nil =>
      rw [List.map_singleton, List.intercalate_singleton, each.1]
      simp [run, step]
    | cons next items =>
      have behind := ih (List.cons_ne_nil next items) each.2 (item.draft :: before)
      rw [List.map_cons] at behind
      rw [List.map_cons, List.map_cons, List.intercalate_cons_cons, List.append_assoc,
        List.append_assoc, each.1]
      simpa [run, step] using behind

/-- The members of an object, if each value is taken where a document is expected. -/
theorem run_members {members : List (String × Json)} (nonempty : members ≠ [])
    (each : ∀ member ∈ members, ∀ stack rest,
      run (stack, .value) (member.2.tokens ++ rest) = run (stack, .after member.2.draft) rest)
    (stack : List Frame) (before : List (Option String × Draft)) (rest : List Token) :
    run (stack, .name before)
        ([Token.comma].intercalate (memberTokens members) ++ .closeObject :: rest) =
      run (stack, .after (.object (before.reverse ++ draftMembers members) true)) rest := by
  induction members generalizing before with
  | nil => exact absurd rfl nonempty
  | cons member members ih =>
    obtain ⟨name, value⟩ := member
    rw [List.forall_mem_cons] at each
    -- The name and the colon open a frame for the value.
    have first (rest : List Token) :
        run (stack, .name before) (.string (some name) :: .colon :: (value.tokens ++ rest)) =
          run (.object before (some name) :: stack, .after value.draft) rest :=
      each.1 _ rest
    cases members with
    | nil =>
      rw [memberTokens, memberTokens, List.intercalate_singleton, List.cons_append,
        List.cons_append, first]
      simp [run, step]
    | cons next members =>
      have behind := ih (List.cons_ne_nil next members) each.2
        ((some name, value.draft) :: before)
      rw [memberTokens] at behind
      rw [memberTokens, memberTokens, List.intercalate_cons_cons, List.append_assoc,
        List.append_assoc, List.cons_append, List.cons_append, first]
      simpa [run, step] using behind

/-- The tokens of a document are taken **wherever a document is expected**. -/
theorem run_tokens (document : Json) (stack : List Frame) (rest : List Token) :
    run (stack, .value) (document.tokens ++ rest) = run (stack, .after document.draft) rest := by
  induction document using Json.induction generalizing stack rest with
  | null | bool flag | number value | string text => rfl
  | array items ih =>
    rw [tokens, itemTokens_eq_map, List.cons_append, List.append_assoc]
    cases items with
    | nil => rfl
    | cons item items =>
      have taken := run_items (List.cons_ne_nil item items) ih stack [] rest
      rw [← run_firstItem] at taken
      rw [draft, draftItems_eq_map]
      exact taken
  | object members ih =>
    rw [tokens, List.cons_append, List.append_assoc]
    cases members with
    | nil => rfl
    | cons member members =>
      have taken := run_members (List.cons_ne_nil member members)
        (fun member mem => ih member.1 member.2 mem) stack [] rest
      rw [← run_firstName] at taken
      exact taken

/-- **A printed document is read back**, whole and with nothing behind it. -/
theorem read_print {document : Json} (integral : document.Integral) :
    read document.print = ⟨document.draft, true⟩ := by
  have cut := cuts_print integral [] apart_nil
  rw [List.append_nil] at cut
  rw [read, cut, run_tokens, Token.ofChars]
  rfl

end ItemExpr.Json
