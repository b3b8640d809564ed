import ItemExpr.Proofs.Formula.Tokens

/-! # Texts as renderings of tokens

Each token is rendered in one way, with the spaces that stand around it, and the text of a formula
is what its tokens render, one behind the other (`Formula.render_tokens`). Nothing is asked of the
placeholders for that, so that the tokens say where the text has parentheses of its own even if a
placeholder has some in it.

Inside a test the only parentheses are those around the arguments of a function and around the
candidates of a membership test (`Test.parensOfCalls_tokens`). -/

namespace ItemExpr

/-! ### Rendering tokens -/

namespace Token

/-- The **rendering of a token**, with the spaces that stand around it. -/
def rendered : Token → String
  | .name placeholder => placeholder
  | .value placeholder => placeholder
  | .number position => Number.natText position
  | .comparison operator => " " ++ operator.word ++ " "
  | .connective joining => " " ++ joining.word ++ " "
  | .not => "NOT "
  | .between => " BETWEEN "
  | .among => " IN "
  | .function called => called.word
  | .part named => named.word ++ " "
  | .comma => ", "
  | .point => "."
  | .opening => "("
  | .closing => ")"
  | .openingBracket => "["
  | .closingBracket => "]"
  | .plus => " + "
  | .minus => " - "

/-- What tokens render, one behind the other. -/
def render (tokens : List Token) : String := String.join (tokens.map rendered)

@[simp] theorem render_nil : render [] = "" := rfl

@[simp] theorem render_cons (token : Token) (tokens : List Token) :
    render (token :: tokens) = token.rendered ++ render tokens := by
  rw [render, List.map_cons, String.join_cons, render]

@[simp] theorem render_append (first second : List Token) :
    render (first ++ second) = render first ++ render second := by
  induction first with
  | nil => simp
  | cons token first ih => simp [ih, String.append_assoc]

/-- A separator between lists of tokens is rendered between what these render. -/
theorem render_intercalate (separator : Token) (items : List (List Token)) :
    render ([separator].intercalate items) = separator.rendered.intercalate (items.map render) := by
  induction items with
  | nil => rfl
  | cons item items ih =>
    cases items with
    | nil => simp
    | cons next items =>
      rw [List.map_cons] at ih
      rw [List.intercalate_cons_cons, render_append, render_append, ih, List.map_cons,
        List.map_cons, String.intercalate_cons_cons]
      simp

end Token

open Token

/-- The text of a path is what its tokens render. -/
theorem Path.render_tokens (path : Path) : render path.tokens = path.text := by
  have steps : ∀ steps : List Path.Step,
      render (steps.flatMap Path.Step.tokens) = String.join (steps.map Path.Step.text) := by
    intro steps
    induction steps with
    | nil => rfl
    | cons step steps ih =>
      rw [List.flatMap_cons, render_append, ih, List.map_cons, String.join_cons]
      cases step <;> simp [Path.Step.tokens, Path.Step.text, rendered, String.append_assoc]
  rw [tokens, render_cons, steps, text]
  rfl

/-- The call of a function is what its tokens render. -/
theorem Function.render_tokens (function : Function) (arguments : List (List Token)) :
    render (function.tokens arguments) = function.call (arguments.map render) := by
  simp [tokens, call, render_intercalate, rendered, String.append_assoc]

/-- The text of a term is what its tokens render. -/
theorem Term.render_tokens (term : Term String) : render term.tokens = term.text := by
  cases term with
  | path target => exact target.render_tokens
  | size target => simp [tokens, text, Function.render_tokens, Path.render_tokens]
  | value placeholder => simp [tokens, text, rendered]

/-- The text of a test is what its tokens render. -/
theorem Test.render_tokens (test : Test String) : render test.tokens = test.text := by
  cases test with
  | compare left comparison right =>
    simp [tokens, text, Term.render_tokens, rendered, String.append_assoc]
  | between term lower upper =>
    simp [tokens, text, Term.render_tokens, rendered, Connective.word, String.append_assoc]
  | among term first others =>
    have candidates : ((first :: others).map Term.tokens).map render =
        (first :: others).map Term.text := by
      rw [List.map_map]
      exact List.map_congr_left fun term _ => term.render_tokens
    rw [tokens, text, render_append, render_cons, render_cons, render_append, render_intercalate,
      candidates, Term.render_tokens]
    simp [rendered, ← String.append_assoc]
  | «exists» target negated =>
    simp [tokens, text, Function.render_tokens, Path.render_tokens]
  | hasType target code | beginsWith target code | contains target code =>
    simp [tokens, text, Function.render_tokens, Path.render_tokens, Term.render_tokens]

/-- The text of a formula is what its tokens render. -/
theorem Formula.render_tokens (formula : Formula String) :
    render formula.tokens = formula.text := by
  induction formula with
  | test leaf => exact leaf.render_tokens
  | not formula ih => simp [tokens, text, ih, rendered, ← String.append_assoc]
  | group connective members ih =>
    have texts : (members.map tokensAsMember).map render = members.map textAsMember := by
      rw [List.map_map]
      refine List.map_congr_left fun member mem => ?_
      rw [Function.comp_apply, tokensAsMember, textAsMember, ← ih member mem]
      split
      · simp [rendered, String.append_assoc]
      · rfl
    rw [tokens, text, memberTokens_eq_map, memberTexts_eq_map, render_intercalate, texts]
    rfl

/-! ### The parentheses of tests -/

/-- Whether every parenthesis among tokens is **one of a call**: around the arguments of a function
or around the candidates of a membership test. -/
inductive ParensOfCalls : List Token → Prop
  /-- Where there is no token, there is no parenthesis. -/
  | nil : ParensOfCalls []
  /-- A token that is no parenthesis. -/
  | plain {token : Token} {rest : List Token} (noOpening : token ≠ .opening)
      (noClosing : token ≠ .closing) (behind : ParensOfCalls rest) : ParensOfCalls (token :: rest)
  /-- The arguments of a function. -/
  | call (function : Function) {arguments rest : List Token} (inside : ParensOfCalls arguments)
      (behind : ParensOfCalls rest) :
      ParensOfCalls (.function function :: .opening :: (arguments ++ .closing :: rest))
  /-- The candidates of a membership test. -/
  | among {candidates rest : List Token} (inside : ParensOfCalls candidates)
      (behind : ParensOfCalls rest) :
      ParensOfCalls (.among :: .opening :: (candidates ++ .closing :: rest))

namespace ParensOfCalls

theorem append {first second : List Token} (before : ParensOfCalls first)
    (behind : ParensOfCalls second) : ParensOfCalls (first ++ second) := by
  induction before with
  | nil => exact behind
  | plain noOpening noClosing _ ih => exact plain noOpening noClosing ih
  | call function inside _ _ ih =>
    rw [List.cons_append, List.cons_append, List.append_assoc, List.cons_append]
    exact call function inside ih
  | among inside _ _ ih =>
    rw [List.cons_append, List.cons_append, List.append_assoc, List.cons_append]
    exact among inside ih

/-- Lists of tokens with commas between them. -/
theorem intercalate_comma {items : List (List Token)} (each : ∀ item ∈ items, ParensOfCalls item) :
    ParensOfCalls ([Token.comma].intercalate items) := by
  induction items with
  | nil => exact nil
  | cons item items ih =>
    rw [List.forall_mem_cons] at each
    cases items with
    | nil => simpa using each.1
    | cons next items =>
      rw [List.intercalate_cons_cons]
      exact (each.1.append (plain (by simp) (by simp) nil)).append (ih each.2)

end ParensOfCalls

/-- A path has no parentheses. -/
theorem Path.parensOfCalls_tokens (path : Path) : ParensOfCalls path.tokens := by
  have steps : ∀ steps : List Path.Step, ParensOfCalls (steps.flatMap Path.Step.tokens) := by
    intro steps
    induction steps with
    | nil => exact .nil
    | cons step steps ih =>
      rw [List.flatMap_cons]
      cases step with
      | field placeholder => exact .plain (by simp) (by simp) (.plain (by simp) (by simp) ih)
      | index position =>
        exact .plain (by simp) (by simp)
          (.plain (by simp) (by simp) (.plain (by simp) (by simp) ih))
  exact .plain (by simp) (by simp) (steps path.steps)

/-- The call of a function has its parentheses and those of its arguments. -/
theorem Function.parensOfCalls_tokens (function : Function) {arguments : List (List Token)}
    (each : ∀ argument ∈ arguments, ParensOfCalls argument) :
    ParensOfCalls (function.tokens arguments) :=
  .call function (.intercalate_comma each) .nil

/-- A term has the parentheses of a size, if any. -/
theorem Term.parensOfCalls_tokens (term : Term String) : ParensOfCalls term.tokens := by
  cases term with
  | path target => exact target.parensOfCalls_tokens
  | size target =>
    exact Function.size.parensOfCalls_tokens
      (List.forall_mem_singleton.2 target.parensOfCalls_tokens)
  | value placeholder => exact .plain (by simp) (by simp) .nil

/-- A test has the parentheses of functions and of candidates only. -/
theorem Test.parensOfCalls_tokens (test : Test String) : ParensOfCalls test.tokens := by
  cases test with
  | compare left comparison right =>
    exact left.parensOfCalls_tokens.append
      (.plain (by simp) (by simp) right.parensOfCalls_tokens)
  | between term lower upper =>
    exact term.parensOfCalls_tokens.append (.plain (by simp) (by simp)
      (lower.parensOfCalls_tokens.append (.plain (by simp) (by simp) upper.parensOfCalls_tokens)))
  | among term first others =>
    have candidates : ∀ tokens ∈ (first :: others).map Term.tokens, ParensOfCalls tokens := by
      rw [List.forall_mem_map]
      intro candidate _
      exact candidate.parensOfCalls_tokens
    exact term.parensOfCalls_tokens.append (.among (.intercalate_comma candidates) .nil)
  | «exists» target negated =>
    exact (Function.existence negated).parensOfCalls_tokens
      (List.forall_mem_singleton.2 target.parensOfCalls_tokens)
  | hasType target code | beginsWith target code | contains target code =>
    refine Function.parensOfCalls_tokens _ ?_
    rw [List.forall_mem_cons, List.forall_mem_singleton]
    exact ⟨target.parensOfCalls_tokens, code.parensOfCalls_tokens⟩

end ItemExpr
