import ItemExpr.Proofs.Formula.Tokens

/-! # Marked words

The marked words of a text are its placeholders as a service finds them, without any grammar: a `#`
or a `:` and as many word characters behind it as there are, at least one. In a text that lexes they
are the placeholders among its tokens (`mem_markedWords_iff`). -/

namespace ItemExpr

/-- The **marked words** of a text: each mark with all word characters behind it, if there are
any. -/
def markedWords (mark : Char) : List Char → List String
  | [] => []
  | c :: cs =>
    if c = mark ∧ cs.takeWhile Settings.isWordChar ≠ [] then
      String.ofList (c :: cs.takeWhile Settings.isWordChar) :: markedWords mark cs
    else markedWords mark cs

/-- The mark of a mention. -/
def Mention.mark {ν : Type} : Mention ν → Char
  | .name _ => '#'
  | .value _ => ':'

/-- The placeholder of a mention. -/
def Mention.text : Mention String → String
  | .name placeholder => placeholder
  | .value placeholder => placeholder

/-- Characters other than the mark are passed over. -/
theorem markedWords_append {mark : Char} {word : List Char} (rest : List Char)
    (unmarked : ∀ c ∈ word, c ≠ mark) :
    markedWords mark (word ++ rest) = markedWords mark rest := by
  induction word with
  | nil => rfl
  | cons c word ih =>
    rw [List.forall_mem_cons] at unmarked
    rw [List.cons_append, markedWords, if_neg fun marked => unmarked.1 marked.1, ih unmarked.2]

/-- What a token runs on over is no mark. -/
theorem markedWords_dropWhile {mark : Char} (first : Char) (cs : List Char)
    (isMark : mark = '#' ∨ mark = ':') :
    markedWords mark (cs.dropWhile (Token.runsOn first)) = markedWords mark cs := by
  -- A token runs on over word characters or over those of comparisons.
  have unmarked : ∀ c ∈ cs.takeWhile (Token.runsOn first), c ≠ mark := by
    rintro c mem rfl
    have runs : Token.runsOn first c = true := List.all_eq_true.1 List.all_takeWhile c mem
    rw [Token.runsOn] at runs
    rcases isMark with rfl | rfl
    · split at runs
      · cases runs
      · split at runs <;> cases runs
    · split at runs
      · cases runs
      · split at runs <;> cases runs
  have whole := markedWords_append (cs.dropWhile (Token.runsOn first)) unmarked
  rw [List.takeWhile_append_dropWhile] at whole
  exact whole.symm

/-- No fixed word or symbol is a placeholder. -/
theorem Token.vocabulary_ne {entry : String × Token} (mem : entry ∈ Token.vocabulary)
    (mention : Mention String) : entry.2 ≠ mention.token := by
  have plain : ∀ entry ∈ Token.vocabulary,
      (match entry.2 with | .name _ => false | .value _ => false | _ => true) = true := by decide
  have other := plain entry mem
  cases mention <;>
  · rintro same
    rw [same] at other
    cases other

/-- A text that is no mark and more is read as no placeholder. -/
theorem Token.ofChars?_ne {c : Char} {cs : List Char} {token : Token}
    (unmarked : c ≠ '#' ∧ c ≠ ':') (reads : Token.ofChars? (c :: cs) = some token)
    (mention : Mention String) : token ≠ mention.token := by
  unfold ofChars? at reads
  split at reads
  · cases reads
  · next same =>
    cases same
    exact absurd rfl unmarked.1
  · next same =>
    cases same
    exact absurd rfl unmarked.2
  · next same =>
    split at reads
    · cases reads
      cases mention <;> nofun
    · obtain ⟨entry, found, rfl⟩ := Option.map_eq_some_iff.1 reads
      exact vocabulary_ne (List.mem_of_find?_eq_some found) mention

/-- What begins with a mark lexes to the placeholder that is the first marked word. -/
theorem markedWords_of_mark {c : Char} {cs : List Char} {token : Token} {make : String → Token}
    (runs : Token.runsOn c = Settings.isWordChar)
    (make_eq : ∀ word, Token.ofChars? (c :: word) =
      if word.isEmpty then none else some (make (String.ofList (c :: word))))
    (reads : Token.ofChars? (c :: cs.takeWhile (Token.runsOn c)) = some token) :
    ∃ placeholder, token = make placeholder ∧
      markedWords c (c :: cs) = placeholder :: markedWords c cs := by
  rw [runs, make_eq] at reads
  split at reads
  · cases reads
  · next some =>
    cases reads
    refine ⟨_, rfl, ?_⟩
    rw [markedWords, if_pos ⟨rfl, by simpa using some⟩]

theorem Mention.mark_eq (mention : Mention String) : mention.mark = '#' ∨ mention.mark = ':' := by
  cases mention
  · exact Or.inl rfl
  · exact Or.inr rfl

/-- A placeholder is a marked word of what begins with a token if it is that token, or if it is a
marked word behind. -/
theorem mem_markedWords_cons {c : Char} {cs : List Char} {token : Token}
    (reads : Token.ofChars? (c :: cs.takeWhile (Token.runsOn c)) = some token)
    (mention : Mention String) :
    mention.text ∈ markedWords mention.mark (c :: cs) ↔
      mention.token = token ∨ mention.text ∈ markedWords mention.mark cs := by
  -- A text that begins with a mark is the placeholder; no other token is one.
  by_cases isName : c = '#'
  · subst isName
    obtain ⟨placeholder, rfl, marked⟩ :=
      @markedWords_of_mark '#' cs token .name rfl (fun _ => rfl) reads
    cases mention with
    | name other =>
      show other ∈ markedWords '#' ('#' :: cs) ↔ _
      rw [marked, List.mem_cons]
      simp [Mention.token, Mention.text, Mention.mark]
    | value other =>
      show other ∈ markedWords ':' ('#' :: cs) ↔ _
      rw [markedWords, if_neg (by simp)]
      simp [Mention.token, Mention.text, Mention.mark]
  by_cases isValue : c = ':'
  · subst isValue
    obtain ⟨placeholder, rfl, marked⟩ :=
      @markedWords_of_mark ':' cs token .value rfl (fun _ => rfl) reads
    cases mention with
    | name other =>
      show other ∈ markedWords '#' (':' :: cs) ↔ _
      rw [markedWords, if_neg (by simp)]
      simp [Mention.token, Mention.text, Mention.mark]
    | value other =>
      show other ∈ markedWords ':' (':' :: cs) ↔ _
      rw [marked, List.mem_cons]
      simp [Mention.token, Mention.text, Mention.mark]
  · have other : mention.token ≠ token :=
      (Token.ofChars?_ne ⟨isName, isValue⟩ reads mention).symm
    rw [markedWords, if_neg]
    · simp [other]
    · rintro ⟨same, _⟩
      rcases mention.mark_eq with isMark | isMark <;> rw [isMark] at same
      · exact isName same
      · exact isValue same

/-- In a text that lexes, the marked words are the placeholders among its tokens. -/
theorem mem_markedWords_iff {cs : List Char} {tokens : List Token} (lexed : lex cs = some tokens)
    (mention : Mention String) :
    mention.text ∈ markedWords mention.mark cs ↔ mention.token ∈ tokens := by
  induction cs using lex.induct generalizing tokens with
  | case1 =>
    rw [lex_nil] at lexed
    cases lexed
    exact ⟨nofun, nofun⟩
  | case2 cs ih =>
    rw [lex_space] at lexed
    rw [← ih lexed, markedWords, if_neg]
    rintro ⟨same, _⟩
    rcases mention.mark_eq with isMark | isMark <;> rw [isMark] at same <;> cases same
  | case3 c cs visible token rest lexed' reads ih =>
    -- The marked words behind the token are those behind its first character.
    obtain ⟨token', rest', reads', lexed'', rfl⟩ := lex_cons_eq_some visible lexed
    rw [List.mem_cons, ← ih lexed'', markedWords_dropWhile c cs mention.mark_eq,
      mem_markedWords_cons reads']
  | case4 c cs visible unread ih =>
    obtain ⟨token, rest, reads, lexed', _⟩ := lex_cons_eq_some visible lexed
    exact (unread token rest reads lexed').elim

/-! ### What a text shows -/

/-- Whether a text lexes and some mentions are the placeholders in it. -/
def Shows (text : String) (mentions : List (Mention String)) : Prop :=
  ∃ tokens, lex text.toList = some tokens ∧
    ∀ mention : Mention String, mention.token ∈ tokens ↔ mention ∈ mentions

/-- The marked words of a text are what it shows. -/
theorem Shows.mem_markedWords {text : String} {mentions : List (Mention String)}
    (shown : Shows text mentions) (mention : Mention String) :
    mention.text ∈ markedWords mention.mark text.toList ↔ mention ∈ mentions := by
  obtain ⟨tokens, lexed, all⟩ := shown
  rw [mem_markedWords_iff lexed, all]

/-- A text that lexes before whatever is apart shows the placeholders among its tokens. -/
theorem Lexes.shows {text : String} {tokens : List Token} {mentions : List (Mention String)}
    (lexes : Lexes text tokens)
    (all : ∀ mention : Mention String, mention.token ∈ tokens ↔ mention ∈ mentions) :
    Shows text mentions :=
  ⟨tokens, lexes.lex_eq, all⟩

/-- The text of a formula shows its mentions. -/
theorem Formula.shows_text {formula : Formula String}
    (legible : ∀ mention ∈ formula.mentions, mention.Legible) :
    Shows formula.text formula.mentions :=
  (Formula.lexes_text legible).shows fun _ => Formula.token_mem_tokens

end ItemExpr
