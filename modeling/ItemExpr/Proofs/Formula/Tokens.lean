import ItemExpr.Proofs.Expression.Token
import ItemExpr.Proofs.Formula.Text

/-! # The tokens of formulas

The text of a formula in placeholders lexes to the tokens that its tree says, provided that its
placeholders are legible, each with its mark and its word characters (`Formula.lexes_text`). -/

namespace ItemExpr

/-- Whether a placeholder has the mark of its kind. -/
def Mention.Legible : Mention String → Prop
  | .name placeholder => Placeholders.IsMarked '#' placeholder
  | .value placeholder => Placeholders.IsMarked ':' placeholder

/-! ### Tokens -/

/-- The tokens of a step. -/
def Path.Step.tokens : Path.Step → List Token
  | .field placeholder => [.point, .name placeholder]
  | .index position => [.openingBracket, .number position, .closingBracket]

/-- The **tokens of a path**. -/
def Path.tokens (path : Path) : List Token :=
  .name path.root :: path.steps.flatMap Path.Step.tokens

/-- The tokens of a call, given those of its arguments. -/
def Function.tokens (function : Function) (arguments : List (List Token)) : List Token :=
  .function function :: .opening :: ([Token.comma].intercalate arguments ++ [.closing])

/-- The **tokens of a term**. -/
def Term.tokens : Term String → List Token
  | .path target => target.tokens
  | .size target => Function.size.tokens [target.tokens]
  | .value placeholder => [.value placeholder]

/-- The **tokens of a test**. -/
def Test.tokens : Test String → List Token
  | .compare left comparison right => left.tokens ++ .comparison comparison :: right.tokens
  | .between term lower upper =>
    term.tokens ++ .between :: (lower.tokens ++ .connective .and :: upper.tokens)
  | .among term first others =>
    term.tokens ++ .among :: .opening ::
      ([Token.comma].intercalate ((first :: others).map Term.tokens) ++ [.closing])
  | .exists target negated => (Function.existence negated).tokens [target.tokens]
  | .hasType target code => Function.attributeType.tokens [target.tokens, code.tokens]
  | .beginsWith target start => Function.beginsWith.tokens [target.tokens, start.tokens]
  | .contains target element => Function.contains.tokens [target.tokens, element.tokens]

namespace Formula

mutual

/-- The **tokens of a formula**. -/
def tokens : Formula String → List Token
  | .test leaf => leaf.tokens
  | .group connective members => [Token.connective connective].intercalate (memberTokens members)
  | .not formula => .not :: .opening :: (tokens formula ++ [.closing])

/-- The tokens of the members of a group, groups among them in parentheses. -/
def memberTokens : List (Formula String) → List (List Token)
  | [] => []
  | member :: members =>
    (if member.isGroup then .opening :: (tokens member ++ [.closing]) else tokens member) ::
      memberTokens members

end

/-- The tokens of one member of a group. -/
def tokensAsMember (member : Formula String) : List Token :=
  if member.isGroup then .opening :: (member.tokens ++ [.closing]) else member.tokens

/-- The text of one member of a group. -/
def textAsMember (member : Formula String) : String :=
  if member.isGroup then "(" ++ member.text ++ ")" else member.text

theorem memberTokens_eq_map (members : List (Formula String)) :
    memberTokens members = members.map tokensAsMember := by
  induction members with
  | nil => rfl
  | cons member members ih => rw [memberTokens, ih, List.map_cons, tokensAsMember]

theorem memberTexts_eq_map (members : List (Formula String)) :
    memberTexts members = members.map textAsMember := by
  induction members with
  | nil => rfl
  | cons member members ih => rw [memberTexts, ih, List.map_cons, textAsMember]

end Formula

/-! ### Texts and their tokens -/

/-- The text of the steps of a path lexes to their tokens. -/
theorem Path.lexes_steps {steps : List Path.Step}
    (legible : ∀ mention ∈ Path.stepMentions steps, mention.Legible) :
    Lexes (String.join (steps.map Path.Step.text)) (steps.flatMap Path.Step.tokens) ∧
      ∀ rest, Apart rest → Apart ((String.join (steps.map Path.Step.text)).toList ++ rest) := by
  induction steps with
  | nil =>
    constructor
    · intro rest _
      simp
    · intro rest apart
      simpa using apart
  | cons step steps ih =>
    rw [List.map_cons, String.join_cons, List.flatMap_cons]
    cases step with
    | field placeholder =>
      rw [stepMentions_field, List.forall_mem_cons] at legible
      obtain ⟨lexes, apart⟩ := ih legible.2
      constructor
      · exact (separates_point.closes.append (lexes_name legible.1)).append lexes apart
      · -- A point is apart from the name before it.
        intro rest _
        rw [Step.text, String.append_assoc, String.toList_append, List.append_assoc]
        exact separates_point.apart _
    | index position =>
      obtain ⟨lexes, apart⟩ := ih legible
      constructor
      · have opened := separates_openingBracket.closes.append (lexes_number position)
        exact (opened.append_separator separates_closingBracket).append lexes
      · intro rest _
        rw [Step.text, String.append_assoc, String.append_assoc, String.toList_append,
          List.append_assoc]
        exact separates_openingBracket.apart _

/-- The text of a path lexes to its tokens. -/
theorem Path.lexes_text {path : Path}
    (legible : ∀ mention ∈ (path.mentions : List (Mention String)), mention.Legible) :
    Lexes path.text path.tokens := by
  obtain ⟨root, steps⟩ := path
  rw [mentions_mk, List.forall_mem_cons] at legible
  obtain ⟨lexes, apart⟩ := Path.lexes_steps legible.2
  exact (lexes_name legible.1).append lexes apart

/-- The text of a call lexes to its tokens. -/
theorem Function.lexes_call (function : Function) {arguments : List (String × List Token)}
    (lexes : ∀ argument ∈ arguments, Lexes argument.1 argument.2) :
    Closes (function.call (arguments.map Prod.fst)) (function.tokens (arguments.map Prod.snd)) := by
  have opened := function.lexes_word.append_separator separates_opening
  have filled := opened.append (separates_comma.intercalate lexes)
  exact filled.append_separator separates_closing

/-- The call of a function on one text lexes to its tokens. -/
theorem Function.lexes_call_one (function : Function) {text : String} {tokens : List Token}
    (lexes : Lexes text tokens) : Lexes (function.call [text]) (function.tokens [tokens]) := by
  have arguments : ∀ argument ∈ [(text, tokens)], Lexes argument.1 argument.2 := by
    intro argument mem
    cases List.mem_singleton.1 mem
    exact lexes
  exact (function.lexes_call arguments).lexes

/-- The call of a function on two texts lexes to its tokens. -/
theorem Function.lexes_call_two (function : Function) {first second : String}
    {tokens tokens' : List Token} (lexes : Lexes first tokens) (lexes' : Lexes second tokens') :
    Lexes (function.call [first, second]) (function.tokens [tokens, tokens']) := by
  have arguments : ∀ argument ∈ [(first, tokens), (second, tokens')],
      Lexes argument.1 argument.2 := by
    intro argument mem
    rcases List.mem_cons.1 mem with rfl | mem
    · exact lexes
    · cases List.mem_singleton.1 mem
      exact lexes'
  exact (function.lexes_call arguments).lexes

/-- The text of a term lexes to its tokens. -/
theorem Term.lexes_text {term : Term String}
    (legible : ∀ mention ∈ term.mentions, mention.Legible) : Lexes term.text term.tokens := by
  cases term with
  | path target => exact Path.lexes_text legible
  | size target => exact Function.size.lexes_call_one (Path.lexes_text legible)
  | value placeholder => exact lexes_value (legible _ (List.mem_singleton_self _))

theorem separates_between : Separates " BETWEEN " [.between] :=
  @Lexes.separates "BETWEEN" _ (lexes_token rfl (by decide) rfl rfl)

theorem separates_and : Separates " AND " [.connective .and] :=
  @Lexes.separates "AND" _ (Connective.lexes_word .and)

theorem separates_among : Separates " IN (" [.among, .opening] :=
  @Separates.append_closes " IN " "(" [.among] [.opening]
    (@Lexes.separates "IN" _ (lexes_token rfl (by decide) rfl rfl))
    separates_opening.closes

theorem closes_not : Closes "NOT (" [.not, .opening] :=
  @Closes.append_closes "NOT " "(" [.not] [.opening]
    (@Lexes.append_separator "NOT" " " [.not] []
      (lexes_token rfl (by decide) rfl rfl) separates_space)
    separates_opening.closes

/-- The text of a test lexes to its tokens. -/
theorem Test.lexes_text {test : Test String}
    (legible : ∀ mention ∈ test.mentions, mention.Legible) : Lexes test.text test.tokens := by
  cases test with
  | compare left comparison right =>
    rw [mentions, List.forall_mem_append] at legible
    have compared :=
      (Term.lexes_text legible.1).append_separator comparison.lexes_word.separates
    have whole := compared.append (Term.lexes_text legible.2)
    simpa only [text, tokens, String.append_assoc, List.append_assoc, List.cons_append,
      List.nil_append] using whole
  | between term lower upper =>
    rw [mentions, List.forall_mem_append, List.forall_mem_append] at legible
    have left := ((Term.lexes_text legible.1).append_separator separates_between).append
      (Term.lexes_text legible.2.1)
    have whole := (left.append_separator separates_and).append (Term.lexes_text legible.2.2)
    simpa only [text, tokens, List.append_assoc, List.cons_append, List.nil_append] using whole
  | among term first others =>
    rw [mentions, List.forall_mem_append] at legible
    have candidates : ∀ term ∈ first :: others, Lexes term.text term.tokens :=
      fun term mem => Term.lexes_text fun mention mem' =>
        legible.2 mention (List.mem_flatMap.2 ⟨term, mem, mem'⟩)
    have opened := (Term.lexes_text legible.1).append_separator separates_among
    have filled := opened.append (separates_comma.intercalate candidates)
    have whole := (filled.append_separator separates_closing).lexes
    simpa only [text, tokens, List.append_assoc, List.cons_append, List.nil_append] using whole
  | «exists» target negated =>
    exact (Function.existence negated).lexes_call_one (Path.lexes_text legible)
  | hasType target code =>
    rw [mentions, List.forall_mem_append] at legible
    exact Function.attributeType.lexes_call_two (Path.lexes_text legible.1)
      (Term.lexes_text legible.2)
  | beginsWith target start =>
    rw [mentions, List.forall_mem_append] at legible
    exact Function.beginsWith.lexes_call_two (Path.lexes_text legible.1)
      (Term.lexes_text legible.2)
  | contains target element =>
    rw [mentions, List.forall_mem_append] at legible
    exact Function.contains.lexes_call_two (Path.lexes_text legible.1)
      (Term.lexes_text legible.2)

namespace Formula

/-- The text of a formula lexes to its tokens. -/
theorem lexes_text {formula : Formula String}
    (legible : ∀ mention ∈ formula.mentions, mention.Legible) :
    Lexes formula.text formula.tokens := by
  induction formula with
  | test leaf => exact Test.lexes_text legible
  | group connective members ih =>
    rw [mentions, memberMentions_eq_flatMap] at legible
    have lexes : ∀ member ∈ members, Lexes member.textAsMember member.tokensAsMember := by
      intro member mem
      have inner := ih member mem fun mention mem' =>
        legible mention (List.mem_flatMap.2 ⟨member, mem, mem'⟩)
      rw [textAsMember, tokensAsMember]
      -- A member that is a group stands in parentheses.
      split
      · exact ((separates_opening.closes.append inner).append_separator
          separates_closing).lexes
      · exact inner
    rw [text, tokens, memberTexts_eq_map, memberTokens_eq_map]
    exact connective.lexes_word.separates.intercalate lexes
  | not formula ih =>
    have whole := ((closes_not.append (ih legible)).append_separator separates_closing).lexes
    simpa only [text, tokens, List.append_assoc, List.cons_append, List.nil_append] using whole

end Formula

/-! ### Mentions among tokens -/

/-- The token of a mention. -/
def Mention.token : Mention String → Token
  | .name placeholder => .name placeholder
  | .value placeholder => .value placeholder

/-- A comma is no placeholder. -/
theorem Mention.token_notMem_comma (mention : Mention String) : mention.token ∉ [Token.comma] := by
  cases mention <;> simp [token]

section MentionTokens

variable {mention : Mention String}

/-- A step mentions the names among its tokens. -/
theorem Path.token_mem_steps {steps : List Path.Step} :
    mention.token ∈ steps.flatMap Path.Step.tokens ↔ mention ∈ Path.stepMentions steps := by
  induction steps with
  | nil => simp
  | cons step steps ih =>
    rw [List.flatMap_cons, List.mem_append, ih]
    cases step <;> cases mention <;> simp [Path.Step.tokens, Mention.token]

/-- A path mentions the names among its tokens. -/
theorem Path.token_mem_tokens {path : Path} :
    mention.token ∈ path.tokens ↔ mention ∈ path.mentions := by
  obtain ⟨root, steps⟩ := path
  rw [tokens, mentions_mk, List.mem_cons, List.mem_cons, Path.token_mem_steps]
  cases mention <;> simp [Mention.token]

/-- The mentions of a call are those of its arguments. -/
theorem Function.token_mem_tokens {function : Function} {arguments : List (List Token)} :
    mention.token ∈ function.tokens arguments ↔
      ∃ argument ∈ arguments, mention.token ∈ argument := by
  rw [tokens, List.mem_cons, List.mem_cons, List.mem_append,
    mem_intercalate mention.token_notMem_comma, List.mem_singleton]
  cases mention <;> simp [Mention.token]

/-- A term mentions the placeholders among its tokens. -/
theorem Term.token_mem_tokens {term : Term String} :
    mention.token ∈ term.tokens ↔ mention ∈ term.mentions := by
  cases term with
  | path target => exact Path.token_mem_tokens
  | size target => simp [tokens, mentions, Function.token_mem_tokens, Path.token_mem_tokens]
  | value placeholder => cases mention <;> simp [tokens, mentions, Mention.token]

/-- A test mentions the placeholders among its tokens. -/
theorem Test.token_mem_tokens {test : Test String} :
    mention.token ∈ test.tokens ↔ mention ∈ test.mentions := by
  cases test with
  | compare left comparison right =>
    simp only [tokens, mentions, List.mem_append, List.mem_cons, Term.token_mem_tokens]
    cases mention <;> simp [Mention.token]
  | between term lower upper =>
    simp only [tokens, mentions, List.mem_append, List.mem_cons, Term.token_mem_tokens]
    cases mention <;> simp [Mention.token]
  | among term first others =>
    have candidates :
        mention.token ∈ [Token.comma].intercalate ((first :: others).map Term.tokens) ↔
          mention ∈ (first :: others).flatMap Term.mentions := by
      rw [mem_intercalate mention.token_notMem_comma, List.mem_flatMap]
      simp only [List.mem_map, exists_exists_and_eq_and, Term.token_mem_tokens]
    rw [tokens, mentions, List.mem_append, List.mem_append, List.mem_cons, List.mem_cons,
      List.mem_append, candidates, Term.token_mem_tokens]
    cases mention <;> simp [Mention.token]
  | «exists» target negated =>
    simp [tokens, mentions, Function.token_mem_tokens, Path.token_mem_tokens]
  | hasType target code | beginsWith target code | contains target code =>
    simp [tokens, mentions, Function.token_mem_tokens, Path.token_mem_tokens,
      Term.token_mem_tokens]

/-- A formula mentions the placeholders among its tokens. -/
theorem Formula.token_mem_tokens {formula : Formula String} :
    mention.token ∈ formula.tokens ↔ mention ∈ formula.mentions := by
  induction formula with
  | test leaf => exact Test.token_mem_tokens
  | not formula ih =>
    simp only [tokens, mentions, List.mem_cons, List.mem_append, ih]
    cases mention <;> simp [Mention.token]
  | group connective members ih =>
    have other : mention.token ∉ [Token.connective connective] := by
      cases mention <;> simp [Mention.token]
    rw [tokens, memberTokens_eq_map, mem_intercalate other, mentions, memberMentions_eq_flatMap,
      List.mem_flatMap]
    simp only [List.mem_map, exists_exists_and_eq_and]
    refine exists_congr fun member => and_congr_right fun mem => ?_
    -- Parentheses around a member are no placeholders.
    rw [← ih member mem, tokensAsMember]
    split
    · cases mention <;> simp [Mention.token]
    · rfl

end MentionTokens

end ItemExpr
