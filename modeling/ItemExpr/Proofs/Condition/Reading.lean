import ItemExpr.Condition.Compile
import ItemExpr.Proofs.Formula.Text

/-! # What conditions say

`Condition.read` gives the formula that a condition says once its paths are read, or the first
reason to refuse it, with no table of placeholders in sight. The compiler of conditions registers
the mentions of that formula in order and writes the text of its spelling
(`Condition.compileNormal_denotes`). -/

namespace ItemExpr

/-! ### Reading -/

/-- The path of a text. -/
def Path.read (text : String) : Except CompileError Path :=
  match Path.parse text with
  | .ok path => .ok path
  | .error defect => .error (.malformed text (.path defect))

/-- The term that an operand says. -/
def Operand.read : Operand → Except CompileError (Term AttributeValue)
  | .path text => do
    let target ← Path.read text
    return .path target
  | .size text => do
    let target ← Path.read text
    return .size target
  | .value literal => return .value literal

/-- The terms that operands say, in order. -/
def Operand.readAll : List Operand → Except CompileError (List (Term AttributeValue))
  | [] => return []
  | operand :: operands => do
    let term ← operand.read
    let terms ← readAll operands
    return term :: terms

namespace Condition

/-- The test that a membership test says. -/
def readAmong (settings : Settings) (operand : Operand) (candidates : List Operand) :
    Except CompileError (Test AttributeValue) :=
  match candidates with
  | [] => .error (.malformed operand.place .noCandidates)
  | first :: others =>
    if settings.maxCandidates < (first :: others).length then
      .error (.malformed operand.place
        (.tooManyCandidates settings.maxCandidates (first :: others).length))
    else do
      let term ← operand.read
      let first ← first.read
      let others ← Operand.readAll others
      return .among term first others

/-- The test that a function of an attribute and an argument says. -/
def readFunction (function : Function)
    (test : Path → Term AttributeValue → Test AttributeValue) (path : String)
    (argument : Operand) : Except CompileError (Test AttributeValue) :=
  if argument.isSize then .error (.malformed path (.sizeArgument function))
  else do
    let target ← Path.read path
    let term ← argument.read
    return test target term

mutual

/-- The **formula that a condition says** under some settings. -/
def read (settings : Settings) : Condition → Except CompileError (Formula AttributeValue)
  | .compare left comparison right => do
    let left ← left.read
    let right ← right.read
    return .test (.compare left comparison right)
  | .between operand lower upper => do
    let term ← operand.read
    let lower ← lower.read
    let upper ← upper.read
    return .test (.between term lower upper)
  | .among operand candidates => do
    let test ← readAmong settings operand candidates
    return .test test
  | .group connective members =>
    if members.isEmpty || members.any isEmptyGroup then .error .emptyGroup
    else do
      let members ← readMembers settings members
      return .group connective members
  | .not condition => do
    let formula ← read settings condition
    return .not formula
  | .exists path negated => do
    let target ← Path.read path
    return .test (.exists target negated)
  | .hasType path type => do
    let target ← Path.read path
    return .test (.hasType target (.value (.string type.code)))
  | .beginsWith path start => do
    let test ← readFunction .beginsWith .beginsWith path start
    return .test test
  | .contains path element => do
    let test ← readFunction .contains .contains path element
    return .test test

/-- The formulas that some conditions say, in order. -/
def readMembers (settings : Settings) :
    List Condition → Except CompileError (List (Formula AttributeValue))
  | [] => return []
  | member :: members => do
    let formula ← read settings member
    let formulas ← readMembers settings members
    return formula :: formulas

end

end Condition

/-! ### Paths and operands -/

open Compile

/-- The steps of a path write their spelling. -/
theorem Compile.steps_denotes (steps : List Path.Step) :
    (Compile.steps steps).Denotes fun _ => .ok
      { registrations := Path.stepMentions steps
        write f := String.join
          ((steps.map (Path.Step.mapName fun name => f (.name name))).map Path.Step.text)
        write_congr agree := by rw [Path.map_mapName_congr agree] } := by
  induction steps with
  | nil => exact Denotes.pure ""
  | cons step steps ih =>
    cases step with
    | field name =>
      -- The name is registered before those of the steps behind it.
      refine ((Denotes.name name).map₂ ih fun placeholder tail => "." ++ placeholder ++ tail).congr
        fun settings => ?_
      refine congrArg Except.ok ?_
      simp only [Phrase.map₂, Phrase.single, List.map_cons, String.join_cons]
      rfl
    | index position =>
      refine (ih.map fun tail => (Path.Step.index position).text ++ tail).congr fun settings => ?_
      refine congrArg Except.ok ?_
      simp only [Phrase.map, List.map_cons, String.join_cons]
      rfl

/-- A path writes its spelling. -/
theorem Compile.path_denotes (text : String) :
    (Compile.path text).Denotes fun _ => (Path.read text).map Path.phrase := by
  rw [Compile.path, Path.read]
  cases Path.parse text with
  | error defect => exact Denotes.refuse text (.path defect)
  | ok path =>
    exact ((Denotes.name path.root).map₂ (Compile.steps_denotes path.steps)
      fun root tail => root ++ tail).congr fun settings => rfl

/-- An operand writes its spelling. -/
theorem Operand.compile_denotes (operand : Operand) :
    operand.compile.Denotes fun _ => operand.read.map Term.phrase := by
  cases operand with
  | path text =>
    refine (Compile.path_denotes text).congr fun settings => ?_
    rw [read]
    cases Path.read text <;> rfl
  | size text =>
    refine ((Compile.path_denotes text).map fun target => Function.size.call [target]).congr
      fun settings => ?_
    rw [read]
    cases Path.read text <;> rfl
  | value literal => exact Denotes.value literal

/-- A list of operands writes its spellings. -/
theorem Operand.compileAll_denotes (operands : List Operand) :
    (Operand.compileAll operands).Denotes fun _ =>
      (Operand.readAll operands).map Term.phraseAll := by
  induction operands with
  | nil => exact Denotes.pure []
  | cons operand operands ih =>
    refine (operand.compile_denotes.map₂ ih List.cons).congr fun settings => ?_
    rw [readAll]
    cases operand.read with
    | error refusal => rfl
    | ok term => cases readAll operands <;> rfl

/-! ### Conditions -/

namespace Condition

/-- A membership test writes the spelling of the test that it says. -/
theorem compileAmong_denotes (operand : Operand) (candidates : List Operand) :
    (compileAmong operand candidates).Denotes fun settings =>
      (readAmong settings operand candidates).map Test.phrase := by
  -- The limit on candidates is looked up in the table at hand.
  refine Denotes.get fun table => ?_
  cases candidates with
  | nil => exact Denotes.refuse operand.place .noCandidates
  | cons first others =>
    rw [readAmong]
    by_cases many : table.settings.maxCandidates < (first :: others).length
    · rw [if_neg (by simp), if_pos many, if_pos many]
      exact Denotes.refuse operand.place _
    · rw [if_neg (by simp), if_neg many, if_neg many]
      refine (operand.compile_denotes.map₂ (Operand.compileAll_denotes (first :: others))
        fun subject texts => subject ++ " IN (" ++ ", ".intercalate texts ++ ")").congr
        fun settings => ?_
      rw [Operand.readAll]
      cases operand.read with
      | error refusal => rfl
      | ok term =>
        cases first.read with
        | error refusal => rfl
        | ok first => cases Operand.readAll others <;> rfl

/-- A call writes the spelling of the test that it says. -/
theorem compileFunction_denotes (function : Function)
    (test : Path → Term AttributeValue → Test AttributeValue) (path : String) (argument : Operand)
    (mentions : ∀ target term, (test target term).mentions = target.mentions ++ term.mentions)
    (text : ∀ (f : Registration → String) target term,
      ((test target term).spell f).text =
        function.call [(target.spell f).text, (term.spell f).text]) :
    (compileFunction function path argument).Denotes fun _ =>
      (readFunction function test path argument).map Test.phrase := by
  rw [compileFunction, readFunction]
  by_cases size : argument.isSize = true
  · rw [if_pos size, if_pos size]
    exact Denotes.refuse path _
  · rw [if_neg size, if_neg size]
    refine ((Compile.path_denotes path).map₂ argument.compile_denotes
      fun target text => function.call [target, text]).congr fun settings => ?_
    cases Path.read path with
    | error refusal => rfl
    | ok target =>
      cases argument.read with
      | error refusal => rfl
      | ok term =>
        have same : (test target term).phrase =
            target.phrase.map₂ (fun target text => function.call [target, text]) term.phrase := by
          simp only [Test.phrase, mentions, text]
          rfl
        exact congrArg Except.ok same.symm

/-- Whether a condition is neither a group nor a NOT. -/
def isTest : Condition → Bool
  | .group _ _ => false
  | .not _ => false
  | _ => true

/-- Induction on conditions, with the members of a group at once and all tests alike. -/
@[elab_as_elim, induction_eliminator]
theorem induction {motive : Condition → Prop}
    (test : ∀ condition, condition.isTest = true → motive condition)
    (group : ∀ connective members, (∀ member ∈ members, motive member) →
      motive (.group connective members))
    (not : ∀ condition, motive condition → motive (.not condition)) :
    ∀ condition, motive condition
  | .group connective members =>
    group connective members fun member _ => induction test group not member
  | .not condition => not condition (induction test group not condition)
  | .compare left comparison right => test (.compare left comparison right) rfl
  | .between operand lower upper => test (.between operand lower upper) rfl
  | .among operand candidates => test (.among operand candidates) rfl
  | .exists path negated => test (.exists path negated) rfl
  | .hasType path type => test (.hasType path type) rfl
  | .beginsWith path start => test (.beginsWith path start) rfl
  | .contains path element => test (.contains path element) rfl

/-- A test says a test. -/
theorem eq_test_of_read {settings : Settings} {condition : Condition}
    {formula : Formula AttributeValue} (test : condition.isTest = true)
    (reads : condition.read settings = .ok formula) : ∃ leaf, formula = .test leaf := by
  cases condition with
  | group | not => cases test
  | compare left comparison right =>
    rw [read] at reads
    obtain ⟨_, _, reads'⟩ := bind_eq_ok_iff.1 reads
    obtain ⟨_, _, ⟨⟩⟩ := bind_eq_ok_iff.1 reads'
    exact ⟨_, rfl⟩
  | between operand lower upper =>
    rw [read] at reads
    obtain ⟨_, _, reads'⟩ := bind_eq_ok_iff.1 reads
    obtain ⟨_, _, reads''⟩ := bind_eq_ok_iff.1 reads'
    obtain ⟨_, _, ⟨⟩⟩ := bind_eq_ok_iff.1 reads''
    exact ⟨_, rfl⟩
  | _ =>
    rw [read] at reads
    obtain ⟨_, _, ⟨⟩⟩ := bind_eq_ok_iff.1 reads
    exact ⟨_, rfl⟩

/-- Nothing but a group says a group. -/
theorem isGroup_of_read {settings : Settings} {condition : Condition}
    {formula : Formula AttributeValue} (reads : condition.read settings = .ok formula) :
    formula.isGroup = condition.isGroup := by
  cases condition using Condition.induction with
  | test condition test =>
    obtain ⟨leaf, rfl⟩ := eq_test_of_read test reads
    cases condition with
    | group | not => cases test
    | _ => rfl
  | group connective members =>
    rw [read] at reads
    split at reads
    · cases reads
    · obtain ⟨members, _, ⟨⟩⟩ := bind_eq_ok_iff.1 reads
      rfl
  | not condition =>
    rw [read] at reads
    obtain ⟨inner, _, ⟨⟩⟩ := bind_eq_ok_iff.1 reads
    rfl

mutual

/-- A condition writes the spelling of the formula that it says. -/
theorem compileNormal_denotes : ∀ condition : Condition,
    (compileNormal condition).Denotes fun settings =>
      (condition.read settings).map Formula.phrase
  | .compare left comparison right => by
    rw [compileNormal]
    refine (left.compile_denotes.map₂ right.compile_denotes
      fun left right => left ++ " " ++ comparison.word ++ " " ++ right).congr fun settings => ?_
    rw [read]
    cases left.read with
    | error refusal => rfl
    | ok left => cases right.read <;> rfl
  | .between operand lower upper => by
    rw [compileNormal]
    refine (operand.compile_denotes.map₃ lower.compile_denotes upper.compile_denotes
      fun operand lower upper => operand ++ " BETWEEN " ++ lower ++ " AND " ++ upper).congr
      fun settings => ?_
    rw [read]
    cases operand.read with
    | error refusal => rfl
    | ok term =>
      cases lower.read with
      | error refusal => rfl
      | ok lower => cases upper.read <;> rfl
  | .among operand candidates => by
    rw [compileNormal]
    refine (compileAmong_denotes operand candidates).congr fun settings => ?_
    rw [read]
    cases readAmong settings operand candidates <;> rfl
  | .group connective members => by
    rw [compileNormal]
    -- An empty group is refused before any member registers anything.
    by_cases empty : (members.isEmpty || members.any isEmptyGroup) = true
    · rw [if_pos empty]
      refine (Denotes.throw .emptyGroup).congr fun settings => ?_
      rw [read, if_pos empty]
      rfl
    · rw [if_neg empty]
      refine ((compileMembers_denotes members).map
        fun texts => (" " ++ connective.word ++ " ").intercalate texts).congr fun settings => ?_
      rw [read, if_neg empty]
      cases readMembers settings members <;> rfl
  | .not condition => by
    rw [compileNormal]
    refine ((compileNormal_denotes condition).map fun text => "NOT (" ++ text ++ ")").congr
      fun settings => ?_
    rw [read]
    cases read settings condition <;> rfl
  | .exists path negated => by
    rw [compileNormal]
    refine ((Compile.path_denotes path).map
      fun target => (Function.existence negated).call [target]).congr fun settings => ?_
    rw [read]
    cases Path.read path <;> rfl
  | .hasType path type => by
    rw [compileNormal]
    refine ((Compile.path_denotes path).map₂ (Denotes.value (.string type.code))
      fun target code => Function.attributeType.call [target, code]).congr fun settings => ?_
    rw [read]
    cases Path.read path <;> rfl
  | .beginsWith path start => by
    rw [compileNormal]
    refine (compileFunction_denotes .beginsWith .beginsWith path start (fun _ _ => rfl)
      fun _ _ _ => rfl).congr fun settings => ?_
    rw [read]
    cases readFunction .beginsWith .beginsWith path start <;> rfl
  | .contains path element => by
    rw [compileNormal]
    refine (compileFunction_denotes .contains .contains path element (fun _ _ => rfl)
      fun _ _ _ => rfl).congr fun settings => ?_
    rw [read]
    cases readFunction .contains .contains path element <;> rfl

/-- The members of a group write the spellings of the formulas that they say. -/
theorem compileMembers_denotes : ∀ members : List Condition,
    (compileMembers members).Denotes fun settings =>
      (readMembers settings members).map Formula.memberPhrase
  | [] => by
    rw [compileMembers]
    exact (Denotes.pure []).congr fun settings => by rw [readMembers]; rfl
  | member :: members => by
    rw [compileMembers]
    refine ((compileNormal_denotes member).map₂ (compileMembers_denotes members)
      fun text texts => (if member.isGroup then "(" ++ text ++ ")" else text) :: texts).congr
      fun settings => ?_
    rw [readMembers]
    cases reads : read settings member with
    | error refusal => rfl
    | ok formula =>
      cases readMembers settings members with
      | error refusal => rfl
      | ok formulas =>
        refine congrArg Except.ok ?_
        -- Parentheses are set by the condition and are looked for in the formula.
        have group := isGroup_of_read reads
        simp only [Phrase.map₂, Formula.phrase, Formula.memberPhrase, Formula.spellMembers,
          Formula.memberTexts, Formula.isGroup_spell, group]
        rfl

end

/-- A condition comes out as the formula that its normal form says. -/
theorem runOn_compileClause (clause : Clause) (condition : Condition) (table : Placeholders) :
    (condition.compileClause clause).runOn table =
      clauseOutcome clause (fun text => text) table
        ((condition.normal.read table.settings).map Formula.phrase) :=
  (compileNormal_denotes condition.normal).runOn_clause clause (fun text => text) table

end Condition

end ItemExpr
