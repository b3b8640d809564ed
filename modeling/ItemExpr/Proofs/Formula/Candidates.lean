import ItemExpr.Proofs.Condition.WellFormed

/-! # Candidates in a text

The candidates of a membership test are counted where they are written: behind every IN among the
tokens of a text there is a list of terms in parentheses (`Token.ListsWithin`). The lists among the
tokens of a formula are those of its membership tests (`Formula.listsWithin_tokens`), and tokens
without an IN have none. -/

namespace ItemExpr

namespace Token

/-- Whether tokens open with a **list** in parentheses, of at least one term and of no more than a
limit. -/
def OpensList (limit : Nat) (tokens : List Token) : Prop :=
  ∃ (candidates : List (Term String)) (rest : List Token),
    tokens = .opening :: ([Token.comma].intercalate (candidates.map Term.tokens) ++
      .closing :: rest) ∧
    1 ≤ candidates.length ∧ candidates.length ≤ limit

/-- Whether there is a list behind every IN among tokens, and **no list is longer than a limit**. -/
def ListsWithin (limit : Nat) (tokens : List Token) : Prop :=
  ∀ behind, .among :: behind <:+ tokens → OpensList limit behind

variable {limit : Nat}

/-- What stands behind a list does not matter. -/
theorem OpensList.append {tokens : List Token} (opens : OpensList limit tokens)
    (behind : List Token) : OpensList limit (tokens ++ behind) := by
  obtain ⟨candidates, rest, rfl, some, few⟩ := opens
  exact ⟨candidates, rest ++ behind, by simp, some, few⟩

/-- Tokens without an IN have no lists. -/
theorem listsWithin_of_notMem {tokens : List Token} (none : Token.among ∉ tokens) :
    ListsWithin limit tokens :=
  fun _ suffix => absurd (suffix.subset List.mem_cons_self) none

theorem listsWithin_cons {token : Token} {tokens : List Token} :
    ListsWithin limit (token :: tokens) ↔
      (token = .among → OpensList limit tokens) ∧ ListsWithin limit tokens := by
  constructor
  · intro within
    refine ⟨?_, fun behind suffix => within behind (suffix.trans (List.suffix_cons _ _))⟩
    rintro rfl
    exact within tokens (List.suffix_refl _)
  · rintro ⟨first, rest⟩ behind suffix
    rcases List.suffix_cons_iff.1 suffix with same | suffix
    · cases same
      exact first rfl
    · exact rest behind suffix

/-- A token that is no IN adds no list. -/
theorem ListsWithin.cons {tokens : List Token} (within : ListsWithin limit tokens) {token : Token}
    (other : token ≠ .among) : ListsWithin limit (token :: tokens) :=
  listsWithin_cons.2 ⟨fun same => absurd same other, within⟩

/-- Lists stay as they are when tokens are put together. -/
theorem ListsWithin.append {first second : List Token} (before : ListsWithin limit first)
    (behind : ListsWithin limit second) : ListsWithin limit (first ++ second) := by
  induction first with
  | nil => exact behind
  | cons token first ih =>
    rw [listsWithin_cons] at before
    refine listsWithin_cons.2 ⟨fun isIn => ?_, ih before.2⟩
    exact (before.1 isIn).append second

/-- Parentheses add no list. -/
theorem ListsWithin.parenthesized {tokens : List Token} (within : ListsWithin limit tokens) :
    ListsWithin limit (.opening :: (tokens ++ [.closing])) := by
  have closing : ListsWithin limit [Token.closing] := listsWithin_of_notMem (by simp)
  exact (within.append closing).cons (by simp)

/-- Lists stay as they are when other tokens are put between. -/
theorem ListsWithin.intercalate {separator : List Token} (between : ListsWithin limit separator)
    {items : List (List Token)} (each : ∀ item ∈ items, ListsWithin limit item) :
    ListsWithin limit (separator.intercalate items) := by
  induction items with
  | nil => exact listsWithin_of_notMem (by simp)
  | cons item items ih =>
    rw [List.forall_mem_cons] at each
    cases items with
    | nil => simpa using each.1
    | cons next items =>
      rw [List.intercalate_cons_cons]
      exact (each.1.append between).append (ih each.2)

end Token

/-! ### Tokens without lists -/

/-- There is no IN among separated items, if there is none in the items and the separator. -/
theorem among_notMem_intercalate {separator : List Token} (between : Token.among ∉ separator)
    {items : List (List Token)} (each : ∀ item ∈ items, Token.among ∉ item) :
    Token.among ∉ separator.intercalate items := by
  rw [mem_intercalate between]
  rintro ⟨item, listed, mem⟩
  exact each item listed mem

/-- There is no IN in a path. -/
theorem Path.among_notMem_tokens (path : Path) : Token.among ∉ path.tokens := by
  intro mem
  rcases List.mem_cons.1 mem with ⟨⟨⟩⟩ | mem
  obtain ⟨step, _, mem⟩ := List.mem_flatMap.1 mem
  cases step <;> simp [Path.Step.tokens] at mem

/-- There is no IN in a call, if there is none in its arguments. -/
theorem Function.among_notMem_tokens (function : Function) {arguments : List (List Token)}
    (each : ∀ argument ∈ arguments, Token.among ∉ argument) :
    Token.among ∉ function.tokens arguments := by
  have none : Token.among ∉ [Token.comma].intercalate arguments :=
    among_notMem_intercalate (by simp) each
  simp [tokens, none]

/-- There is no IN in a term. -/
theorem Term.among_notMem_tokens (term : Term String) : Token.among ∉ term.tokens := by
  cases term with
  | path target => exact target.among_notMem_tokens
  | size target =>
    refine Function.among_notMem_tokens .size ?_
    simpa using target.among_notMem_tokens
  | value placeholder => simp [tokens]

/-! ### The lists of formulas -/

variable {limit : Nat}

/-- Whether a test has no more candidates than a limit, if it is one of membership. -/
def Test.CandidatesWithin {ν : Type} (limit : Nat) : Test ν → Prop
  | .among _ first others => (first :: others).length ≤ limit
  | _ => True

/-- A test that is spelled has as many candidates. -/
theorem Test.candidatesWithin_spell {f : Registration → String} {test : Test AttributeValue} :
    (test.spell f).CandidatesWithin limit ↔ test.CandidatesWithin limit := by
  cases test with
  | among term first others => simp [spell, CandidatesWithin]
  | _ => rfl

/-- The list of a test is that of its candidates. -/
theorem Test.listsWithin_tokens {test : Test String} (within : test.CandidatesWithin limit) :
    Token.ListsWithin limit test.tokens := by
  have term : ∀ term : Term String, Token.ListsWithin limit term.tokens :=
    fun term => Token.listsWithin_of_notMem term.among_notMem_tokens
  have call : ∀ (function : Function) (arguments : List (List Token)),
      (∀ argument ∈ arguments, Token.among ∉ argument) →
        Token.ListsWithin limit (function.tokens arguments) :=
    fun function _ each => Token.listsWithin_of_notMem (function.among_notMem_tokens each)
  cases test with
  | compare left comparison right => exact (term left).append ((term right).cons (by simp))
  | between tested lower upper =>
    exact (term tested).append
      (((term lower).append ((term upper).cons (by simp))).cons (by simp))
  | among tested first others =>
    refine (term tested).append (Token.listsWithin_cons.2 ⟨fun _ => ?_, ?_⟩)
    · exact ⟨first :: others, [], rfl, by simp, within⟩
    · have candidates : Token.ListsWithin limit
          ([Token.comma].intercalate ((first :: others).map Term.tokens)) :=
        (Token.listsWithin_of_notMem (by simp)).intercalate (List.forall_mem_map.2 fun each _ =>
          term each)
      exact candidates.parenthesized
  | «exists» target negated => exact call _ _ (by simpa using target.among_notMem_tokens)
  | hasType target argument | beginsWith target argument | contains target argument =>
    exact call _ _ (by simpa using ⟨target.among_notMem_tokens, argument.among_notMem_tokens⟩)

namespace Formula

/-- **The lists of a formula** are those of its tests. -/
theorem listsWithin_tokens {formula : Formula String}
    (within : ∀ test ∈ formula.tests, test.CandidatesWithin limit) :
    Token.ListsWithin limit formula.tokens := by
  induction formula with
  | test leaf => exact Test.listsWithin_tokens (within leaf (List.mem_singleton_self leaf))
  | not formula ih => exact (ih within).parenthesized.cons (by simp)
  | group connective members ih =>
    rw [tests, memberTests_eq_flatMap] at within
    rw [tokens, memberTokens_eq_map]
    have between : Token.ListsWithin limit [Token.connective connective] :=
      Token.listsWithin_of_notMem (by simp)
    refine between.intercalate (List.forall_mem_map.2 fun member mem => ?_)
    have inside := ih member mem fun test mem' =>
      within test (List.mem_flatMap.2 ⟨member, mem, mem'⟩)
    rw [tokensAsMember]
    split
    · exact inside.parenthesized
    · exact inside

/-- The tests of a formula that is spelled are the tests of the formula, spelled. -/
theorem tests_spell (f : Registration → String) (formula : Formula AttributeValue) :
    (formula.spell f).tests = formula.tests.map (Test.spell f) := by
  induction formula with
  | test leaf => rfl
  | not formula ih => exact ih
  | group connective members ih =>
    rw [spell, tests, tests, spellMembers_eq_map, memberTests_eq_flatMap, memberTests_eq_flatMap,
      List.flatMap_map, List.map_flatMap]
    exact List.flatMap_congr ih

end Formula

/-! ### The candidates of conditions -/

namespace Condition

variable {settings : Settings}

/-- A test that can be read has no more candidates than the settings allow. -/
theorem candidatesWithin_of_read_test {condition : Condition} {leaf : Test AttributeValue}
    (reads : condition.read settings = .ok (.test leaf)) :
    leaf.CandidatesWithin settings.maxCandidates := by
  have wellFormed := wellFormed_of_read reads
  cases condition with
  | group connective members => obtain ⟨_, _, _, ⟨⟩⟩ := read_group_iff.1 reads
  | among operand candidates =>
    have few := (wellFormed.candidates operand candidates (by simp [parts])).2
    rw [read] at reads
    obtain ⟨test, among, ⟨⟩⟩ := bind_eq_ok_iff.1 reads
    -- The candidates are read one for one.
    have length := (leaves_of_readAmong among).length_eq
    cases leaf with
    | among term first others =>
      rw [List.length_cons] at length
      exact Nat.le_trans (Nat.le_of_eq (Nat.succ.inj length).symm) few
    | _ => trivial
  | not condition =>
    rw [read] at reads
    obtain ⟨_, _, ⟨⟩⟩ := bind_eq_ok_iff.1 reads
  | compare left comparison right =>
    rw [read] at reads
    obtain ⟨_, _, reads⟩ := bind_eq_ok_iff.1 reads
    obtain ⟨_, _, ⟨⟩⟩ := bind_eq_ok_iff.1 reads
    trivial
  | between operand lower upper =>
    rw [read] at reads
    obtain ⟨_, _, reads⟩ := bind_eq_ok_iff.1 reads
    obtain ⟨_, _, reads⟩ := bind_eq_ok_iff.1 reads
    obtain ⟨_, _, ⟨⟩⟩ := bind_eq_ok_iff.1 reads
    trivial
  | «exists» path negated | hasType path type =>
    rw [read] at reads
    obtain ⟨_, _, ⟨⟩⟩ := bind_eq_ok_iff.1 reads
    trivial
  | beginsWith path argument | contains path argument =>
    rw [read] at reads
    obtain ⟨_, call, ⟨⟩⟩ := bind_eq_ok_iff.1 reads
    rw [readFunction] at call
    split at call
    · cases call
    · obtain ⟨_, _, call⟩ := bind_eq_ok_iff.1 call
      obtain ⟨_, _, ⟨⟩⟩ := bind_eq_ok_iff.1 call
      trivial

/-- **No test of a formula that a condition says has more candidates than the settings allow.** -/
theorem candidatesWithin_of_read {condition : Condition} {said : Formula AttributeValue}
    (reads : condition.read settings = .ok said) :
    ∀ leaf ∈ said.tests, leaf.CandidatesWithin settings.maxCandidates := by
  intro leaf mem
  obtain ⟨test, reads'⟩ := exists_of_forall₂ (allSay_of_read reads).flip leaf mem
  exact candidatesWithin_of_read_test reads'

end Condition

end ItemExpr
