import ItemExpr.Proofs.Formula.Tokens

/-! # The grammar of formulas

`Formula.parse` reads the text of a condition by its grammar alone. NOT binds more tightly than AND
and AND more tightly than OR, parentheses group, and the first AND behind a BETWEEN belongs to it.
Members with one connective between them make one group.

A flat formula is read back from its text (`Formula.parse_text`). The induction is on the formula. A
member of a group is read as a factor, since it is in parentheses if it is a group; the formula as a
whole is read up to the end or to a closing parenthesis. -/

namespace ItemExpr

namespace Grammar

variable {α : Type}

/-! ### Reading tokens -/

/-- Items with a separator between them, at least one. -/
def separated (separator : Token) (item : List Token → Option (α × List Token))
    (tokens : List Token) : Option (List α × List Token) :=
  match item tokens with
  | none => none
  | some (first, []) => some ([first], [])
  | some (first, next :: rest) =>
    if next = separator ∧ rest.length < tokens.length then
      match separated separator item rest with
      | none => none
      | some (others, rest) => some (first :: others, rest)
    else some ([first], next :: rest)
termination_by tokens.length

/-- What is read up to a closing parenthesis, which goes with it. -/
def closed : Option (α × List Token) → Option (α × List Token)
  | some (result, .closing :: rest) => some (result, rest)
  | _ => none

/-- The steps behind a name. -/
def steps : List Token → List Path.Step × List Token
  | .point :: .name placeholder :: rest =>
    let (others, rest) := steps rest
    (.field placeholder :: others, rest)
  | .openingBracket :: .number position :: .closingBracket :: rest =>
    let (others, rest) := steps rest
    (.index position :: others, rest)
  | rest => ([], rest)

/-- A path. -/
def path : List Token → Option (Path × List Token)
  | .name placeholder :: rest =>
    let (others, rest) := steps rest
    some (⟨placeholder, others⟩, rest)
  | _ => none

/-- A term: a placeholder of a value, a size or a path. -/
def term : List Token → Option (Term String × List Token)
  | .value placeholder :: rest => some (.value placeholder, rest)
  | .function .size :: .opening :: rest =>
    (closed (path rest)).map fun (target, rest) => (.size target, rest)
  | tokens => (path tokens).map fun (target, rest) => (.path target, rest)

/-- A path, a comma and a term. -/
def pathAndTerm (tokens : List Token) : Option ((Path × Term String) × List Token) :=
  match path tokens with
  | some (target, .comma :: rest) =>
    (term rest).map fun (argument, rest) => ((target, argument), rest)
  | _ => none

/-- What is behind a function and an opening parenthesis. -/
def call (function : Function) (tokens : List Token) : Option (Test String × List Token) :=
  match function with
  | .attributeExists =>
    (closed (path tokens)).map fun (target, rest) => (.exists target false, rest)
  | .attributeNotExists =>
    (closed (path tokens)).map fun (target, rest) => (.exists target true, rest)
  | .attributeType =>
    (closed (pathAndTerm tokens)).map fun (arguments, rest) =>
      (.hasType arguments.1 arguments.2, rest)
  | .beginsWith =>
    (closed (pathAndTerm tokens)).map fun (arguments, rest) =>
      (.beginsWith arguments.1 arguments.2, rest)
  | .contains =>
    (closed (pathAndTerm tokens)).map fun (arguments, rest) =>
      (.contains arguments.1 arguments.2, rest)
  | _ => none

/-- A test that starts with a term. -/
def relation (tokens : List Token) : Option (Test String × List Token) :=
  match term tokens with
  | some (left, .comparison comparison :: rest) =>
    (term rest).map fun (right, rest) => (.compare left comparison right, rest)
  | some (subject, .between :: rest) =>
    match term rest with
    -- This AND is not one between factors.
    | some (lower, .connective .and :: rest) =>
      (term rest).map fun (upper, rest) => (.between subject lower upper, rest)
    | _ => none
  | some (subject, .among :: .opening :: rest) =>
    match closed (separated .comma term rest) with
    | some (first :: others, rest) => some (.among subject first others, rest)
    | _ => none
  | _ => none

/-- A test. -/
def test : List Token → Option (Test String × List Token)
  -- A size is no test but begins one.
  | .function .size :: rest => relation (.function .size :: rest)
  | .function function :: .opening :: rest => call function rest
  | tokens => relation tokens

/-- Factors with AND between them. -/
def conjunction (factor : List Token → Option (Formula String × List Token))
    (tokens : List Token) : Option (Formula String × List Token) :=
  (separated (.connective .and) factor tokens).map fun (members, rest) =>
    (.join .and members, rest)

/-- Conjunctions with OR between them. -/
def disjunction (factor : List Token → Option (Formula String × List Token))
    (tokens : List Token) : Option (Formula String × List Token) :=
  (separated (.connective .or) (conjunction factor) tokens).map fun (members, rest) =>
    (.join .or members, rest)

/-- A **factor**: a test, a factor behind NOT or a disjunction in parentheses, up to a depth. -/
def factor : Nat → List Token → Option (Formula String × List Token)
  | 0, _ => none
  | depth + 1, .not :: rest =>
    (factor depth rest).map fun (formula, rest) => (.not formula, rest)
  | depth + 1, .opening :: rest => closed (disjunction (factor depth) rest)
  | _ + 1, tokens => (test tokens).map fun (leaf, rest) => (.test leaf, rest)

end Grammar

/-- The **formula of a text**. It is nowhere deeper than it has tokens. -/
def Formula.parse (text : String) : Option (Formula String) :=
  match lex text.toList with
  | none => none
  | some tokens =>
    match Grammar.disjunction (Grammar.factor (tokens.length + 1)) tokens with
    | some (formula, []) => some formula
    | _ => none

namespace Grammar

variable {α : Type}

/-! ### Reading back -/

/-- Whether no path goes on in some tokens. -/
def Stops (rest : List Token) : Prop :=
  rest.head? ≠ some .point ∧ rest.head? ≠ some .openingBracket

theorem stops_cons {token : Token} {rest : List Token}
    (other : token ≠ .point ∧ token ≠ .openingBracket) : Stops (token :: rest) :=
  ⟨fun same => other.1 (Option.some.inj same), fun same => other.2 (Option.some.inj same)⟩

/-- Items with separators between them are read back, if each of them is before a separator and
before the end. -/
theorem separated_intercalate {separator : Token} {item : List Token → Option (α × List Token)}
    {tokens : α → List Token} {ends : List Token → Prop}
    (between : ∀ rest, ends (separator :: rest)) {items : List α} (nonempty : items ≠ [])
    (reads : ∀ x ∈ items, ∀ rest, ends rest → item (tokens x ++ rest) = some (x, rest))
    {rest : List Token} (stop : ends rest) (last : rest.head? ≠ some separator) :
    separated separator item ([separator].intercalate (items.map tokens) ++ rest) =
      some (items, rest) := by
  induction items with
  | nil => exact absurd rfl nonempty
  | cons first others ih =>
    rw [List.forall_mem_cons] at reads
    cases others with
    | nil =>
      have read := reads.1 rest stop
      rw [List.map_singleton, List.intercalate_singleton, separated, read]
      cases rest with
      | nil => rfl
      | cons next rest =>
        have differ : next ≠ separator := fun same => last (congrArg some same)
        simp only [differ, false_and, if_false]
    | cons second others =>
      have read := reads.1
        (separator :: ([separator].intercalate ((second :: others).map tokens) ++ rest))
        (between _)
      have behind := ih (List.cons_ne_nil _ _) reads.2
      have shape : [separator].intercalate ((first :: second :: others).map tokens) ++ rest =
          tokens first ++
            (separator :: ([separator].intercalate ((second :: others).map tokens) ++ rest)) := by
        simp [List.intercalate_cons_cons]
      rw [shape, separated, read]
      -- The parser only goes on where less is left to be read.
      have shorter : ([separator].intercalate ((second :: others).map tokens) ++ rest).length <
          (tokens first ++ separator ::
            ([separator].intercalate ((second :: others).map tokens) ++ rest)).length := by
        simp only [List.length_append, List.length_cons]
        omega
      simp only [shorter, and_self, if_true, behind]

/-- The steps of a path are read back. -/
theorem steps_tokens (path : List Path.Step) {rest : List Token} (stop : Stops rest) :
    steps (path.flatMap Path.Step.tokens ++ rest) = (path, rest) := by
  induction path with
  | nil =>
    rw [List.flatMap_nil, List.nil_append]
    -- What comes behind begins no further step.
    unfold steps
    split
    · exact absurd rfl stop.1
    · exact absurd rfl stop.2
    · rfl
  | cons step path ih =>
    cases step with
    | field placeholder =>
      rw [List.flatMap_cons, List.append_assoc]
      show steps (.point :: .name placeholder :: (path.flatMap Path.Step.tokens ++ rest)) = _
      rw [steps, ih]
    | index position =>
      rw [List.flatMap_cons, List.append_assoc]
      show steps (.openingBracket :: .number position :: .closingBracket ::
        (path.flatMap Path.Step.tokens ++ rest)) = _
      rw [steps, ih]

/-- A path is read back. -/
theorem path_tokens (target : Path) (rest : List Token) (stop : Stops rest) :
    path (target.tokens ++ rest) = some (target, rest) := by
  rw [Path.tokens, List.cons_append, path, steps_tokens target.steps stop]

/-- A term is read back. -/
theorem term_tokens (subject : Term String) (rest : List Token) (stop : Stops rest) :
    term (subject.tokens ++ rest) = some (subject, rest) := by
  cases subject with
  | path target =>
    have read := path_tokens target rest stop
    rw [Term.tokens]
    rw [Path.tokens, List.cons_append] at read ⊢
    rw [term, read]
    · rfl
    all_goals simp
  | size target =>
    have read := path_tokens target (.closing :: rest) (stops_cons (by simp))
    have shape : (Term.size target).tokens ++ rest =
        .function .size :: .opening :: (target.tokens ++ .closing :: rest) := by
      simp [Term.tokens, Function.tokens]
    rw [shape, term, read]
    rfl
  | value placeholder => rfl

/-- A path and a term are read back. -/
theorem pathAndTerm_tokens (target : Path) (argument : Term String) (rest : List Token)
    (stop : Stops rest) :
    pathAndTerm (target.tokens ++ .comma :: (argument.tokens ++ rest)) =
      some ((target, argument), rest) := by
  have read := path_tokens target (.comma :: (argument.tokens ++ rest)) (stops_cons (by simp))
  rw [pathAndTerm, read]
  simp only [term_tokens argument rest stop, Option.map_some]

/-- What starts with a term is read as a relation. -/
theorem test_term_tokens (subject : Term String) (rest : List Token) :
    test (subject.tokens ++ rest) = relation (subject.tokens ++ rest) := by
  cases subject <;> rfl

/-- The call of a function on a path and a term is read back. -/
theorem call_tokens {function : Function} {make : Path → Term String → Test String}
    (calls : ∀ tokens, call function tokens =
      (closed (pathAndTerm tokens)).map fun (arguments, rest) =>
        (make arguments.1 arguments.2, rest))
    (other : function ≠ .size) (target : Path) (argument : Term String) (rest : List Token) :
    test (function.tokens [target.tokens, argument.tokens] ++ rest) =
      some (make target argument, rest) := by
  have read := pathAndTerm_tokens target argument (.closing :: rest) (stops_cons (by simp))
  have shape : function.tokens [target.tokens, argument.tokens] ++ rest =
      .function function :: .opening ::
        (target.tokens ++ .comma :: (argument.tokens ++ .closing :: rest)) := by
    simp [Function.tokens, List.intercalate_cons_cons]
  rw [shape, test, calls, read]
  · rfl
  · exact other

/-- A test is read back. -/
theorem test_tokens (leaf : Test String) (rest : List Token) (stop : Stops rest) :
    test (leaf.tokens ++ rest) = some (leaf, rest) := by
  cases leaf with
  | compare left comparison right =>
    have read := term_tokens left (.comparison comparison :: (right.tokens ++ rest))
      (stops_cons (by simp))
    rw [Test.tokens, List.append_assoc, List.cons_append, test_term_tokens, relation, read]
    simp only [term_tokens right rest stop, Option.map_some]
  | between subject lower upper =>
    have read := term_tokens subject
      (.between :: (lower.tokens ++ .connective .and :: (upper.tokens ++ rest)))
      (stops_cons (by simp))
    have read' := term_tokens lower (.connective .and :: (upper.tokens ++ rest))
      (stops_cons (by simp))
    rw [Test.tokens, List.append_assoc, List.cons_append, List.append_assoc, List.cons_append,
      test_term_tokens, relation, read]
    simp only [read', term_tokens upper rest stop, Option.map_some]
  | among subject first others =>
    have read := term_tokens subject (.among :: .opening ::
      ([Token.comma].intercalate ((first :: others).map Term.tokens) ++ .closing :: rest))
      (stops_cons (by simp))
    -- A comma or the closing parenthesis ends each candidate.
    have candidates : separated .comma term
        ([Token.comma].intercalate ((first :: others).map Term.tokens) ++ .closing :: rest) =
        some (first :: others, .closing :: rest) :=
      separated_intercalate (fun _ => stops_cons (by simp)) (List.cons_ne_nil first others)
        (fun subject _ => term_tokens subject) (stops_cons (by simp)) (by simp)
    rw [Test.tokens, List.append_assoc, List.cons_append, List.cons_append, List.append_assoc,
      List.singleton_append, test_term_tokens, relation, read]
    simp only [candidates, closed]
  | «exists» target negated =>
    have read := path_tokens target (.closing :: rest) (stops_cons (by simp))
    have shape : (Test.exists target negated).tokens ++ rest =
        .function (.existence negated) :: .opening :: (target.tokens ++ .closing :: rest) := by
      simp [Test.tokens, Function.tokens]
    rw [shape]
    -- Which of the two functions is called says whether the test is negated.
    cases negated <;>
    · show Option.map _ (closed (path (target.tokens ++ .closing :: rest))) = _
      rw [read]
      rfl
  | hasType target code => exact call_tokens (fun _ => rfl) (by simp) target code rest
  | beginsWith target start => exact call_tokens (fun _ => rfl) (by simp) target start rest
  | contains target element => exact call_tokens (fun _ => rfl) (by simp) target element rest

/-! ### Formulas -/

/-- Whether neither a path nor a group of AND goes on in some tokens. -/
def StopsAnd (rest : List Token) : Prop := Stops rest ∧ rest.head? ≠ some (.connective .and)

/-- Members that are factors are read back with AND between them. -/
theorem conjunction_tokens {factor : List Token → Option (Formula String × List Token)}
    {members : List (Formula String)} (nonempty : members ≠ [])
    (reads : ∀ member ∈ members, ∀ rest, Stops rest →
      factor (member.tokensAsMember ++ rest) = some (member, rest))
    {rest : List Token} (stop : StopsAnd rest) :
    conjunction factor
        ([Token.connective .and].intercalate (members.map Formula.tokensAsMember) ++ rest) =
      some (.join .and members, rest) := by
  rw [conjunction, separated_intercalate (fun _ => stops_cons (by simp)) nonempty reads stop.1
    stop.2]
  rfl

/-- One member that is a factor is read back as a conjunction. -/
theorem conjunction_tokensAsMember {factor : List Token → Option (Formula String × List Token)}
    {member : Formula String}
    (reads : ∀ rest, Stops rest → factor (member.tokensAsMember ++ rest) = some (member, rest))
    {rest : List Token} (stop : StopsAnd rest) :
    conjunction factor (member.tokensAsMember ++ rest) = some (member, rest) := by
  have read := conjunction_tokens (List.cons_ne_nil member [])
    (fun other mem => by rw [List.mem_singleton.1 mem]; exact reads) stop
  simpa using read

/-- A conjunction is read back as a disjunction. -/
theorem disjunction_of_conjunction {factor : List Token → Option (Formula String × List Token)}
    {formula : Formula String} {tokens rest : List Token}
    (read : conjunction factor (tokens ++ rest) = some (formula, rest))
    (last : rest.head? ≠ some (.connective .or)) :
    disjunction factor (tokens ++ rest) = some (formula, rest) := by
  rw [disjunction, separated, read]
  cases rest with
  | nil => rfl
  | cons next rest =>
    have differ : next ≠ .connective .or := fun same => last (congrArg some same)
    simp only [differ, false_and, if_false]
    rfl

/-- Members that are factors are read back with OR between them. -/
theorem disjunction_tokens {factor : List Token → Option (Formula String × List Token)}
    {members : List (Formula String)} (nonempty : members ≠ [])
    (reads : ∀ member ∈ members, ∀ rest, Stops rest →
      factor (member.tokensAsMember ++ rest) = some (member, rest))
    {rest : List Token} (stop : StopsAnd rest) (last : rest.head? ≠ some (.connective .or)) :
    disjunction factor
        ([Token.connective .or].intercalate (members.map Formula.tokensAsMember) ++ rest) =
      some (.join .or members, rest) := by
  have each : ∀ member ∈ members, ∀ rest, StopsAnd rest →
      conjunction factor (member.tokensAsMember ++ rest) = some (member, rest) :=
    fun member mem _ stop => conjunction_tokensAsMember (reads member mem) stop
  rw [disjunction, separated_intercalate
    (fun _ => ⟨stops_cons (by simp), by simp⟩) nonempty each stop last]
  rfl

/-- A factor that is no group is read back as a disjunction. -/
theorem disjunction_tokens_of_factor
    {factor : List Token → Option (Formula String × List Token)} {formula : Formula String}
    (alone : formula.isGroup = false)
    (reads : ∀ rest, Stops rest → factor (formula.tokensAsMember ++ rest) = some (formula, rest))
    {rest : List Token} (stop : StopsAnd rest) (last : rest.head? ≠ some (.connective .or)) :
    disjunction factor (formula.tokens ++ rest) = some (formula, rest) := by
  have read := conjunction_tokensAsMember reads stop
  rw [Formula.tokensAsMember, if_neg (by simp [alone])] at read
  exact disjunction_of_conjunction read last

/-- The tokens of a test are read as such by a factor. -/
theorem factor_test (depth : Nat) (leaf : Test String) (rest : List Token) :
    factor (depth + 1) (leaf.tokens ++ rest) =
      (test (leaf.tokens ++ rest)).map fun (leaf, rest) => (.test leaf, rest) := by
  cases leaf with
  | compare left comparison right => cases left <;> rfl
  | between subject lower upper => cases subject <;> rfl
  | among subject first others => cases subject <;> rfl
  | _ => rfl

theorem length_le_intercalate {separator : List Token} {item : List Token}
    {items : List (List Token)} (mem : item ∈ items) :
    item.length ≤ (separator.intercalate items).length := by
  induction items with
  | nil => cases mem
  | cons first others ih =>
    cases others with
    | nil =>
      cases List.mem_singleton.1 mem
      exact Nat.le_of_eq (congrArg List.length List.intercalate_singleton.symm)
    | cons second others =>
      rw [List.intercalate_cons_cons, List.length_append, List.length_append]
      rcases List.mem_cons.1 mem with rfl | mem
      · omega
      · have := ih mem
        omega

/-- A flat formula is read back: as a factor in the form that it has as a member, and as a
disjunction in the form that it has on its own. -/
theorem formula_tokens {formula : Formula String} (flat : formula.Flat) (depth : Nat) :
    (formula.tokensAsMember.length < depth → ∀ rest, Stops rest →
      factor depth (formula.tokensAsMember ++ rest) = some (formula, rest)) ∧
    (formula.tokens.length < depth → ∀ rest, StopsAnd rest →
      rest.head? ≠ some (.connective .or) →
      disjunction (factor depth) (formula.tokens ++ rest) = some (formula, rest)) := by
  induction formula generalizing depth with
  | test leaf =>
    have reads : leaf.tokens.length < depth → ∀ rest, Stops rest →
        factor depth (leaf.tokens ++ rest) = some (.test leaf, rest) := by
      intro deep rest stop
      obtain ⟨depth, rfl⟩ := Nat.exists_eq_succ_of_ne_zero (Nat.ne_zero_of_lt deep)
      rw [factor_test, test_tokens leaf rest stop]
      rfl
    exact ⟨reads, fun deep rest => disjunction_tokens_of_factor rfl (reads deep)⟩
  | not formula ih =>
    have reads : (Formula.not formula).tokens.length < depth → ∀ rest, Stops rest →
        factor depth ((Formula.not formula).tokens ++ rest) = some (.not formula, rest) := by
      intro deep rest stop
      have inner : formula.tokens.length + 3 < depth := by
        simpa [Formula.tokens] using deep
      -- One level is for the NOT, and one for the parentheses behind it.
      obtain ⟨depth, rfl⟩ : ∃ inside, depth = inside + 2 := ⟨depth - 2, by omega⟩
      have read := (ih flat depth).2 (by omega) (.closing :: rest)
        ⟨stops_cons (by simp), by simp⟩ (by simp)
      have shape : (Formula.not formula).tokens ++ rest =
          .not :: .opening :: (formula.tokens ++ .closing :: rest) := by
        simp [Formula.tokens]
      rw [shape, factor, factor, read]
      rfl
    exact ⟨reads, fun deep rest => disjunction_tokens_of_factor rfl (reads deep)⟩
  | group connective members ih =>
    obtain ⟨several, flatMembers⟩ := flat
    rw [Formula.flatMembers_iff] at flatMembers
    have nonempty : members ≠ [] := by
      rintro rfl
      cases several
    -- The whole group is read at every depth, since in parentheses it is read one level deeper.
    have whole : ∀ depth, (Formula.group connective members).tokens.length < depth →
        ∀ rest, StopsAnd rest → rest.head? ≠ some (.connective .or) →
        disjunction (factor depth) ((Formula.group connective members).tokens ++ rest) =
          some (.group connective members, rest) := by
      intro depth deep rest stop last
      rw [Formula.tokens, Formula.memberTokens_eq_map] at deep ⊢
      have reads : ∀ member ∈ members, ∀ rest, Stops rest →
          factor depth (member.tokensAsMember ++ rest) = some (member, rest) := by
        intro member mem
        have short : member.tokensAsMember.length ≤ ([Token.connective connective].intercalate
            (members.map Formula.tokensAsMember)).length :=
          length_le_intercalate (List.mem_map_of_mem mem)
        exact (ih member mem (flatMembers member mem).1 depth).1 (by omega)
      cases connective with
      | and =>
        -- An AND is the only conjunction of its disjunction.
        refine disjunction_of_conjunction ?_ last
        rw [conjunction_tokens nonempty reads stop, Formula.join_of_length several]
      | or => rw [disjunction_tokens nonempty reads stop last, Formula.join_of_length several]
    refine ⟨?_, whole depth⟩
    intro deep rest stop
    have shape : (Formula.group connective members).tokensAsMember =
        .opening :: ((Formula.group connective members).tokens ++ [.closing]) := rfl
    rw [shape] at deep ⊢
    have inner : (Formula.group connective members).tokens.length + 2 < depth := by
      simpa using deep
    obtain ⟨depth, rfl⟩ : ∃ inside, depth = inside + 1 := ⟨depth - 1, by omega⟩
    have read := whole depth (by omega) (.closing :: rest) ⟨stops_cons (by simp), by simp⟩
      (by simp)
    rw [List.cons_append, List.append_assoc, List.singleton_append, factor, read]
    rfl

end Grammar

/-- **A flat formula is read back from its text**, if its placeholders are legible. -/
theorem Formula.parse_text {formula : Formula String} (flat : formula.Flat)
    (legible : ∀ mention ∈ formula.mentions, mention.Legible) :
    Formula.parse formula.text = some formula := by
  have read := (Grammar.formula_tokens flat (formula.tokens.length + 1)).2 (Nat.lt_succ_self _) []
    ⟨⟨by simp, by simp⟩, by simp⟩ (by simp)
  rw [List.append_nil] at read
  rw [parse, (Formula.lexes_text legible).lex_eq]
  simp only [read]

end ItemExpr
