import ItemExpr.Proofs.Expression.Marked
import ItemExpr.Proofs.Update.Reading

/-! # The tokens of updates

The text of a change in placeholders lexes to the tokens that it says, and so does the text of all
changes by parts. No change is left out, so that an update shows the mentions of all of them
(`Update.shows_partsText`). -/

namespace ItemExpr

/-! ### Tokens of changes -/

/-- The **tokens of a source**. -/
def Source.tokens : Source String → List Token
  | .value placeholder => [.value placeholder]
  | .reference path none => path.tokens
  | .reference path (some fallback) => Function.ifNotExists.tokens [path.tokens, [.value fallback]]

/-- The **tokens of a change**. -/
def Change.tokens : Change String → List Token
  | .remove target => target.tokens
  | .change .set target source => target.tokens ++ .comparison .eq :: source.tokens
  | .change .add target source =>
    target.tokens ++ .comparison .eq :: (target.tokens ++ .plus :: source.tokens)
  | .change .subtract target source =>
    target.tokens ++ .comparison .eq :: (target.tokens ++ .minus :: source.tokens)
  | .change .append target source =>
    target.tokens ++ .comparison .eq :: Function.listAppend.tokens [target.tokens, source.tokens]
  | .change .prepend target source =>
    target.tokens ++ .comparison .eq :: Function.listAppend.tokens [source.tokens, target.tokens]
  | .change .addToSet target source => target.tokens ++ source.tokens
  | .change .deleteFromSet target source => target.tokens ++ source.tokens

/-- The text of a source lexes to its tokens. -/
theorem Source.lexes_text {source : Source String}
    (legible : ∀ mention ∈ source.mentions, mention.Legible) :
    Lexes source.text source.tokens := by
  cases source with
  | value placeholder => exact lexes_value (legible _ (List.mem_singleton_self _))
  | reference path fallback =>
    cases fallback with
    | none => exact Path.lexes_text legible
    | some fallback =>
      rw [mentions, List.forall_mem_append] at legible
      exact Function.ifNotExists.lexes_call_two (Path.lexes_text legible.1)
        (lexes_value (legible.2 _ (List.mem_singleton_self _)))

theorem separates_equals : Separates " = " [.comparison .eq] :=
  @Lexes.separates "=" _ (Comparison.lexes_word .eq)

theorem separates_plus : Separates " + " [.plus] :=
  @Lexes.separates "+" _ (lexes_token rfl (by decide) rfl rfl)

theorem separates_minus : Separates " - " [.minus] :=
  @Lexes.separates "-" _ (lexes_token rfl (by decide) rfl rfl)

/-- The text of a change lexes to its tokens. -/
theorem Change.lexes_text {change : Change String}
    (legible : ∀ mention ∈ change.mentions, mention.Legible) :
    Lexes change.text change.tokens := by
  cases change with
  | remove target => exact Path.lexes_text legible
  | change kind target source =>
    rw [mentions, List.forall_mem_append] at legible
    have left := Path.lexes_text legible.1
    have right := Source.lexes_text legible.2
    have assigned := left.append_separator separates_equals
    cases kind with
    | set =>
      simpa only [text, tokens, List.append_assoc, List.cons_append, List.nil_append]
        using assigned.append right
    | add =>
      have whole := ((assigned.append left).append_separator separates_plus).append right
      simpa only [text, tokens, List.append_assoc, List.cons_append, List.nil_append] using whole
    | subtract =>
      have whole := ((assigned.append left).append_separator separates_minus).append right
      simpa only [text, tokens, List.append_assoc, List.cons_append, List.nil_append] using whole
    | append =>
      have whole := assigned.append (Function.listAppend.lexes_call_two left right)
      simpa only [text, tokens, List.append_assoc, List.cons_append, List.nil_append] using whole
    | prepend =>
      have whole := assigned.append (Function.listAppend.lexes_call_two right left)
      simpa only [text, tokens, List.append_assoc, List.cons_append, List.nil_append] using whole
    | addToSet | deleteFromSet =>
      have whole := (left.append_separator separates_space).append right
      simpa only [text, tokens, List.append_nil] using whole

section MentionTokens

variable {mention : Mention String}

/-- A source mentions the placeholders among its tokens. -/
theorem Source.token_mem_tokens {source : Source String} :
    mention.token ∈ source.tokens ↔ mention ∈ source.mentions := by
  cases source with
  | value placeholder => cases mention <;> simp [tokens, mentions, Mention.token]
  | reference path fallback =>
    cases fallback with
    | none => exact Path.token_mem_tokens
    | some fallback =>
      rw [tokens, mentions, Function.token_mem_tokens, List.mem_append]
      simp only [List.mem_cons, List.not_mem_nil, or_false, exists_eq_or_imp, exists_eq_left,
        Path.token_mem_tokens]
      cases mention <;> simp [Mention.token]

/-- A change mentions the placeholders among its tokens. -/
theorem Change.token_mem_tokens {change : Change String} :
    mention.token ∈ change.tokens ↔ mention ∈ change.mentions := by
  cases change with
  | remove target => exact Path.token_mem_tokens
  | change kind target source =>
    have equals : mention.token ≠ .comparison .eq := by cases mention <;> simp [Mention.token]
    have plus : mention.token ≠ .plus := by cases mention <;> simp [Mention.token]
    have minus : mention.token ≠ .minus := by cases mention <;> simp [Mention.token]
    rw [mentions, List.mem_append]
    cases kind <;>
      simp only [tokens, List.mem_append, List.mem_cons, List.not_mem_nil, or_false,
        exists_eq_or_imp, exists_eq_left, Function.token_mem_tokens, Path.token_mem_tokens,
        Source.token_mem_tokens, equals, plus, minus, false_or]
    all_goals tauto

end MentionTokens

/-! ### Parts -/

namespace Update

/-- The text of one part of an update with some changes. -/
def partText (changes : List (Change String)) (part : UpdatePart) : String :=
  part.word ++ " " ++
    ", ".intercalate ((changes.filter fun change => change.part = part).map Change.text)

/-- The tokens of one part of an update with some changes. -/
def partTokens (changes : List (Change String)) (part : UpdatePart) : List Token :=
  .part part ::
    [Token.comma].intercalate ((changes.filter fun change => change.part = part).map Change.tokens)

/-- The parts that an update with some changes has, in the order in which they are written. -/
def partsOf (changes : List (Change String)) : List UpdatePart :=
  UpdatePart.all.filter fun part => changes.any fun change => change.part = part

theorem mem_partsOf {changes : List (Change String)} {change : Change String}
    (mem : change ∈ changes) : change.part ∈ partsOf changes := by
  have listed : change.part ∈ UpdatePart.all := by cases change.part <;> decide
  exact List.mem_filter.2 ⟨listed, List.any_eq_true.2 ⟨change, mem, decide_eq_true rfl⟩⟩

/-- The text of changes by parts has one text for each of the parts. -/
theorem partsText_eq (changes : List (Change String)) :
    partsText (changes.map fun change => (change.part, change.text)) =
      " ".intercalate ((partsOf changes).map (partText changes)) := by
  have texts : ∀ part, ((changes.map fun change => (change.part, change.text)).filter
      fun entry => entry.1 = part).map Prod.snd =
      (changes.filter fun change => change.part = part).map Change.text := by
    intro part
    rw [List.filter_map, List.map_map]
    rfl
  rw [partsText, partsOf]
  congr 1
  -- A part without changes has no text, and is filtered out on the other side.
  induction UpdatePart.all with
  | nil => rfl
  | cons part parts ih =>
    rw [List.filterMap_cons, List.filter_cons, ih, partText?, texts]
    by_cases some : (changes.any fun change => change.part = part) = true
    · rw [if_pos some, List.map_cons, partText]
      obtain ⟨change, mem, same⟩ := List.any_eq_true.1 some
      cases shown : (changes.filter fun change => change.part = part).map Change.text with
      | nil =>
        have listed : change ∈ changes.filter fun change => change.part = part :=
          List.mem_filter.2 ⟨mem, same⟩
        rw [List.map_eq_nil_iff.1 shown] at listed
        cases listed
      | cons text texts => rfl
    · have none : (changes.filter fun change => change.part = part) = [] := by
        rw [List.filter_eq_nil_iff]
        intro change mem same
        exact some (List.any_eq_true.2 ⟨change, mem, same⟩)
      rw [if_neg some, none]
      rfl

/-- The text of changes by parts lexes to the tokens of the parts. -/
theorem lexes_partsText {changes : List (Change String)}
    (legible : ∀ mention ∈ changes.flatMap Change.mentions, mention.Legible) :
    Lexes (partsText (changes.map fun change => (change.part, change.text)))
      (([] : List Token).intercalate ((partsOf changes).map (partTokens changes))) := by
  rw [partsText_eq]
  refine separates_space.intercalate fun part _ => ?_
  have each : ∀ change ∈ changes.filter fun change => change.part = part,
      Lexes change.text change.tokens := by
    intro change mem
    refine Change.lexes_text fun mention mem' => legible mention ?_
    exact List.mem_flatMap.2 ⟨change, List.mem_of_mem_filter mem, mem'⟩
  have named := part.lexes_word.append_separator separates_space
  exact named.append (separates_comma.intercalate each)

/-- An update shows the mentions of all its changes. -/
theorem shows_partsText {changes : List (Change String)}
    (legible : ∀ mention ∈ changes.flatMap Change.mentions, mention.Legible) :
    Shows (partsText (changes.map fun change => (change.part, change.text)))
      (changes.flatMap Change.mentions) := by
  refine (lexes_partsText legible).shows fun mention => ?_
  have inPart : ∀ part, mention.token ∈ partTokens changes part ↔
      ∃ change ∈ changes, change.part = part ∧ mention ∈ change.mentions := by
    intro part
    have word : mention.token ≠ .part part := by cases mention <;> simp [Mention.token]
    rw [partTokens, List.mem_cons, mem_intercalate mention.token_notMem_comma]
    simp only [word, false_or, List.mem_map, exists_exists_and_eq_and, Change.token_mem_tokens]
    simp only [List.mem_filter, decide_eq_true_eq, and_assoc]
  rw [mem_intercalate (by simp), List.mem_flatMap]
  simp only [List.mem_map, exists_exists_and_eq_and, inPart]
  constructor
  · rintro ⟨part, _, change, mem, _, mem'⟩
    exact ⟨change, mem, mem'⟩
  · rintro ⟨change, mem, mem'⟩
    exact ⟨change.part, mem_partsOf mem, change, mem, rfl, mem'⟩

end Update

end ItemExpr
