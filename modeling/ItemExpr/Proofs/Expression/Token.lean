import ItemExpr.Proofs.Placeholders.Numbering
import ItemExpr.Words

/-! # Tokens of expressions

The text of an expression is read in `Token`s: placeholders, numbers, the fixed words and symbols.
`lex` takes the longest token at each place and skips spaces between them.

That a text `Lexes` to tokens is said for whatever stands behind it, as long as the last token
cannot run on into that. A text that `Separates` closes what stands before it and opens what comes
behind, so that longer texts are put together from shorter ones. -/

namespace ItemExpr

/-- A **token** of an expression. -/
inductive Token where
  /-- A placeholder of a name. -/
  | name (placeholder : String)
  /-- A placeholder of a value. -/
  | value (placeholder : String)
  /-- A number. -/
  | number (number : Nat)
  /-- A comparison. -/
  | comparison (comparison : Comparison)
  /-- AND or OR. -/
  | connective (connective : Connective)
  /-- NOT. -/
  | not
  /-- BETWEEN. -/
  | between
  /-- IN. -/
  | among
  /-- A function. -/
  | function (function : Function)
  /-- The word of a part of an update. -/
  | part (part : UpdatePart)
  /-- A comma. -/
  | comma
  /-- A point. -/
  | point
  /-- An opening parenthesis. -/
  | opening
  /-- A closing parenthesis. -/
  | closing
  /-- An opening bracket. -/
  | openingBracket
  /-- A closing bracket. -/
  | closingBracket
  /-- A plus sign. -/
  | plus
  /-- A minus sign. -/
  | minus
deriving DecidableEq, Repr

namespace Token

/-! ### Reading tokens -/

/-- The **vocabulary** of expressions: their fixed words and symbols, as they are spelled. It takes
no word from the compilers, so that what these write is read by it only if they spell it right. -/
def vocabulary : List (String × Token) :=
  [("=", comparison .eq), ("<>", comparison .ne), ("<", comparison .lt), ("<=", comparison .le),
    (">", comparison .gt), (">=", comparison .ge),
    ("AND", connective .and), ("OR", connective .or),
    ("NOT", not), ("BETWEEN", between), ("IN", among),
    ("attribute_exists", function .attributeExists),
    ("attribute_not_exists", function .attributeNotExists),
    ("attribute_type", function .attributeType), ("begins_with", function .beginsWith),
    ("contains", function .contains), ("size", function .size),
    ("if_not_exists", function .ifNotExists), ("list_append", function .listAppend),
    ("SET", part .set), ("REMOVE", part .remove), ("ADD", part .add), ("DELETE", part .delete),
    (",", comma), (".", point), ("(", opening), (")", closing), ("[", openingBracket),
    ("]", closingBracket), ("+", plus), ("-", minus)]

/-- The token of a text that is not broken up any more. -/
def ofChars? : List Char → Option Token
  | [] => none
  | '#' :: word => if word.isEmpty then none else some (name (String.ofList ('#' :: word)))
  | ':' :: word => if word.isEmpty then none else some (value (String.ofList (':' :: word)))
  | c :: cs =>
    if (c :: cs).all Char.isDigit then some (number (Text.ofDigits (c :: cs)))
    else (vocabulary.find? fun entry => entry.1 = String.ofList (c :: cs)).map Prod.snd

/-- Whether a character belongs to comparisons. -/
def isComparisonChar (c : Char) : Bool := c = '=' || c = '<' || c = '>'

/-- Whether a character is a token of its own. -/
def isSymbol (c : Char) : Bool := ",.()[]+-".toList.contains c

/-- Whether a character goes on with the token that another one begins. -/
def runsOn (first next : Char) : Bool :=
  if isComparisonChar first then isComparisonChar next
  else if isSymbol first then false
  else Settings.isWordChar next

end Token

/-- The **tokens of a text**. -/
def lex : List Char → Option (List Token)
  | [] => some []
  | c :: cs =>
    if c = ' ' then lex cs
    else
      -- The longest token at this place.
      match Token.ofChars? (c :: cs.takeWhile (Token.runsOn c)),
        lex (cs.dropWhile (Token.runsOn c)) with
      | some token, some tokens => some (token :: tokens)
      | _, _ => none
termination_by cs => cs.length
decreasing_by
  · exact Nat.lt_succ_self _
  · exact Nat.lt_succ_of_le (List.dropWhile_sublist _).length_le

@[simp] theorem lex_nil : lex [] = some [] := by
  rw [lex]

/-- Spaces are skipped. -/
@[simp] theorem lex_space (cs : List Char) : lex (' ' :: cs) = lex cs := by
  rw [lex, if_pos rfl]

/-- What lexes and does not begin with a space lexes to a token and to what is behind it. -/
theorem lex_cons_eq_some {c : Char} {cs : List Char} {tokens : List Token} (visible : c ≠ ' ')
    (lexed : lex (c :: cs) = some tokens) :
    ∃ token rest, Token.ofChars? (c :: cs.takeWhile (Token.runsOn c)) = some token ∧
      lex (cs.dropWhile (Token.runsOn c)) = some rest ∧ tokens = token :: rest := by
  rw [lex, if_neg visible] at lexed
  split at lexed
  · next token rest reads lexed' =>
    cases lexed
    exact ⟨token, rest, reads, lexed', rfl⟩
  · cases lexed

/-- A token is taken off a text if it cannot run on into what comes behind. -/
theorem lex_token {c : Char} {word rest : List Char} {token : Token} (visible : c ≠ ' ')
    (runs : ∀ d ∈ word, Token.runsOn c d = true)
    (ends : ∀ d ∈ rest.head?, Token.runsOn c d = false)
    (reads : Token.ofChars? (c :: word) = some token) :
    lex (c :: word ++ rest) = (lex rest).map (token :: ·) := by
  -- The word is all that the token runs on over.
  have taken : (word ++ rest).takeWhile (Token.runsOn c) = word ∧
      (word ++ rest).dropWhile (Token.runsOn c) = rest := by
    rw [List.takeWhile_append_of_pos runs, List.dropWhile_append_of_pos runs]
    cases rest with
    | nil => simp
    | cons d rest => simp [ends d rfl]
  rw [List.cons_append, lex, if_neg visible, taken.1, taken.2, reads]
  cases lex rest <;> rfl

/-! ### Texts and their tokens -/

/-- Whether no token before a text can run on into it. -/
def Apart (rest : List Char) : Prop :=
  ∀ c ∈ rest.head?, Settings.isWordChar c = false ∧ Token.isComparisonChar c = false

/-- Whether a text lexes to tokens, if what comes behind is apart. -/
def Lexes (text : String) (tokens : List Token) : Prop :=
  ∀ rest, Apart rest → lex (text.toList ++ rest) = (lex rest).map (tokens ++ ·)

/-- Whether a text lexes to tokens, whatever comes behind. -/
def Closes (text : String) (tokens : List Token) : Prop :=
  ∀ rest, lex (text.toList ++ rest) = (lex rest).map (tokens ++ ·)

/-- Whether a text lexes to tokens between any two other ones. -/
structure Separates (text : String) (tokens : List Token) : Prop where
  /-- What comes behind does not matter. -/
  closes : Closes text tokens
  /-- What stands before does not run on. -/
  apart : ∀ rest, Apart (text.toList ++ rest)

theorem apart_nil : Apart [] := fun _ mem => nomatch mem

theorem Apart.runsOn {rest : List Char} (apart : Apart rest) (first : Char) :
    ∀ c ∈ rest.head?, Token.runsOn first c = false := by
  intro c mem
  rw [Token.runsOn, (apart c mem).1, (apart c mem).2]
  split
  · rfl
  · split <;> rfl

section Append

variable {a b separator : String} {s t u : List Token}

theorem map_append_map (s t : List Token) (tokens : Option (List Token)) :
    (tokens.map (t ++ ·)).map (s ++ ·) = tokens.map (s ++ t ++ ·) := by
  cases tokens <;> simp

/-- On its own, a text lexes to its tokens. -/
theorem Lexes.lex_eq (lexes : Lexes a s) : lex a.toList = some s := by
  have lexed := lexes [] apart_nil
  rw [List.append_nil, lex_nil, Option.map_some, List.append_nil] at lexed
  exact lexed

theorem Closes.lexes (closes : Closes a s) : Lexes a s := fun rest _ => closes rest

theorem Lexes.append (first : Lexes a s) (second : Lexes b t)
    (apart : ∀ rest, Apart rest → Apart (b.toList ++ rest)) : Lexes (a ++ b) (s ++ t) := by
  intro rest behind
  rw [String.toList_append, List.append_assoc, first _ (apart rest behind), second rest behind,
    map_append_map]

theorem Lexes.append_separator (first : Lexes a s) (second : Separates separator t) :
    Closes (a ++ separator) (s ++ t) := by
  intro rest
  rw [String.toList_append, List.append_assoc, first _ (second.apart rest), second.closes rest,
    map_append_map]

theorem Closes.append (first : Closes a s) (second : Lexes b t) : Lexes (a ++ b) (s ++ t) := by
  intro rest behind
  rw [String.toList_append, List.append_assoc, first _, second rest behind, map_append_map]

theorem Closes.append_closes (first : Closes a s) (second : Closes b t) :
    Closes (a ++ b) (s ++ t) := by
  intro rest
  rw [String.toList_append, List.append_assoc, first _, second rest, map_append_map]

theorem Separates.append_closes (first : Separates a s) (second : Closes b t) :
    Separates (a ++ b) (s ++ t) where
  closes := first.closes.append_closes second
  apart rest := by
    rw [String.toList_append, List.append_assoc]
    exact first.apart _

/-- Texts with a separator between them lex to their tokens with those of the separator between
them. -/
theorem Separates.intercalate {α : Type} {text : α → String} {tokens : α → List Token}
    (between : Separates separator s) {items : List α}
    (lexes : ∀ item ∈ items, Lexes (text item) (tokens item)) :
    Lexes (separator.intercalate (items.map text)) (s.intercalate (items.map tokens)) := by
  induction items with
  | nil =>
    intro rest _
    simp
  | cons item items ih =>
    rw [List.forall_mem_cons] at lexes
    cases items with
    -- There is no separator behind the last item.
    | nil => simpa using lexes.1
    | cons next items =>
      have rest := ih lexes.2
      have step := (lexes.1.append_separator between).append rest
      simpa [String.intercalate_cons_cons, List.intercalate_cons_cons] using step

end Append

/-- A token that is not of the separator stands among separated items exactly if it is in one of
the items. -/
theorem mem_intercalate {separator : List Token} {token : Token} (other : token ∉ separator)
    {items : List (List Token)} :
    token ∈ separator.intercalate items ↔ ∃ item ∈ items, token ∈ item := by
  induction items with
  | nil => simp
  | cons item items ih =>
    cases items with
    | nil => simp
    | cons next items =>
      rw [List.intercalate_cons_cons, List.mem_append, List.mem_append, ih]
      simp [other]

/-! ### Single tokens -/

/-- A text that is one token. -/
theorem lexes_token {text : String} {c : Char} {word : List Char} {token : Token}
    (chars : text.toList = c :: word) (visible : c ≠ ' ')
    (runs : word.all (Token.runsOn c) = true)
    (reads : Token.ofChars? (c :: word) = some token) : Lexes text [token] := by
  intro rest behind
  rw [chars]
  exact lex_token visible (List.all_eq_true.1 runs) (behind.runsOn c) reads

/-- A text that is one symbol. -/
theorem separates_symbol {text : String} {c : Char} {token : Token} (chars : text.toList = [c])
    (visible : c ≠ ' ') (symbol : Token.isSymbol c = true)
    (other : Settings.isWordChar c = false ∧ Token.isComparisonChar c = false)
    (reads : Token.ofChars? [c] = some token) : Separates text [token] where
  closes rest := by
    have ends : ∀ d ∈ rest.head?, Token.runsOn c d = false := by
      intro d _
      rw [Token.runsOn, other.2, symbol]
      rfl
    rw [chars]
    exact @lex_token c [] rest token visible (fun _ mem => nomatch mem) ends reads
  apart rest := by
    rw [chars]
    intro d mem
    cases mem
    exact other

theorem separates_space : Separates " " [] where
  closes rest := by
    show lex (' ' :: rest) = _
    rw [lex_space]
    cases lex rest <;> rfl
  apart rest := by
    intro d mem
    cases mem
    exact ⟨rfl, rfl⟩

theorem separates_opening : Separates "(" [.opening] :=
  separates_symbol rfl (by decide) rfl ⟨rfl, rfl⟩ rfl

theorem separates_closing : Separates ")" [.closing] :=
  separates_symbol rfl (by decide) rfl ⟨rfl, rfl⟩ rfl

theorem separates_openingBracket : Separates "[" [.openingBracket] :=
  separates_symbol rfl (by decide) rfl ⟨rfl, rfl⟩ rfl

theorem separates_closingBracket : Separates "]" [.closingBracket] :=
  separates_symbol rfl (by decide) rfl ⟨rfl, rfl⟩ rfl

theorem separates_point : Separates "." [.point] :=
  separates_symbol rfl (by decide) rfl ⟨rfl, rfl⟩ rfl

/-- A comma with a space behind it. -/
theorem separates_comma : Separates ", " [.comma] :=
  @Separates.append_closes "," " " [.comma] []
    (separates_symbol rfl (by decide) rfl ⟨rfl, rfl⟩ rfl) separates_space.closes

/-- A word with spaces around it. -/
theorem Lexes.separates {word : String} {tokens : List Token} (lexes : Lexes word tokens) :
    Separates (" " ++ word ++ " ") tokens := by
  have behind : Closes (word ++ " ") (tokens ++ []) := lexes.append_separator separates_space
  rw [List.append_nil] at behind
  have whole := separates_space.append_closes behind
  rw [← String.append_assoc] at whole
  exact whole

theorem Comparison.lexes_word (comparison : Comparison) :
    Lexes comparison.word [.comparison comparison] := by
  cases comparison <;> exact lexes_token rfl (by decide) rfl rfl

theorem Connective.lexes_word (connective : Connective) :
    Lexes connective.word [.connective connective] := by
  cases connective <;> exact lexes_token rfl (by decide) rfl rfl

theorem Function.lexes_word (function : Function) :
    Lexes function.word [.function function] := by
  cases function <;> exact lexes_token rfl (by decide) rfl rfl

theorem UpdatePart.lexes_word (part : UpdatePart) : Lexes part.word [.part part] := by
  cases part <;> exact lexes_token rfl (by decide) rfl rfl

/-! ### Placeholders and numbers -/

/-- A placeholder of a name is one token. -/
theorem lexes_name {placeholder : String} (marked : Placeholders.IsMarked '#' placeholder) :
    Lexes placeholder [.name placeholder] := by
  obtain ⟨word, nonempty, all, chars⟩ := marked
  refine lexes_token chars (by decide) (List.all_eq_true.2 all) ?_
  rw [Token.ofChars?, if_neg (by simpa using nonempty), ← chars, String.ofList_toList]

/-- A placeholder of a value is one token. -/
theorem lexes_value {placeholder : String} (marked : Placeholders.IsMarked ':' placeholder) :
    Lexes placeholder [.value placeholder] := by
  obtain ⟨word, nonempty, all, chars⟩ := marked
  refine lexes_token chars (by decide) (List.all_eq_true.2 all) ?_
  rw [Token.ofChars?, if_neg (by simpa using nonempty), ← chars, String.ofList_toList]

/-- A digit is neither of a comparison nor a symbol. -/
theorem Token.runsOn_of_isDigit {c d : Char} (digit : c.isDigit = true) :
    Token.runsOn c d = Settings.isWordChar d := by
  have differ : ∀ {e : Char}, e.isDigit = false → c ≠ e := by
    rintro e other rfl
    rw [digit] at other
    cases other
  have plain : isComparisonChar c = false ∧ isSymbol c = false := by
    constructor
    · simp [isComparisonChar, @differ '=' rfl, @differ '<' rfl, @differ '>' rfl]
    · simp [isSymbol, @differ ',' rfl, @differ '.' rfl, @differ '(' rfl, @differ ')' rfl,
        @differ '[' rfl, @differ ']' rfl, @differ '+' rfl, @differ '-' rfl]
  rw [runsOn, plain.1, plain.2]
  rfl

/-- Digits are read as a number. -/
theorem Token.ofChars?_of_digits {c : Char} {cs : List Char}
    (digits : ∀ d ∈ c :: cs, d.isDigit = true) :
    Token.ofChars? (c :: cs) = some (.number (Text.ofDigits (c :: cs))) := by
  have first : c.isDigit = true := digits c List.mem_cons_self
  unfold ofChars?
  split
  · next none => cases none
  · next word chars =>
    cases chars
    cases first
  · next word chars =>
    cases chars
    cases first
  · next chars =>
    cases chars
    rw [if_pos (List.all_eq_true.2 digits)]

/-- A numeral is one token. -/
theorem lexes_number (number : Nat) : Lexes (Number.natText number) [.number number] := by
  have digits : ∀ d ∈ Number.digitsOf number, d.isDigit = true := fun d mem =>
    Number.isDigit_of_mem_digitsOf mem
  have value := Text.ofDigits_digitsOf number
  cases chars : Number.digitsOf number with
  | nil => exact absurd chars (Number.digitsOf_ne_nil number)
  | cons c cs =>
    rw [chars] at digits value
    have first : c.isDigit = true := digits c List.mem_cons_self
    refine lexes_token ((Number.toList_natText number).trans chars) ?_ ?_ ?_
    · rintro rfl
      cases first
    · rw [List.all_eq_true]
      intro d mem
      rw [Token.runsOn_of_isDigit first]
      exact Settings.isWordChar_of_isDigit (digits d (List.mem_cons_of_mem _ mem))
    · rw [Token.ofChars?_of_digits digits, value]

end ItemExpr
