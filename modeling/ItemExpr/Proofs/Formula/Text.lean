import ItemExpr.Proofs.Compile.Phrase
import ItemExpr.Proofs.Formula.Spelling

/-! # The text of formulas

A formula in placeholders is written with its connectives between the members of a group; a member
that is itself a group stands in parentheses, and so does what NOT applies to. `Path.phrase`,
`Term.phrase`, `Test.phrase` and `Formula.phrase` are the phrases of a path, term, test and
formula: their mentions are registered in order, and their text in placeholders is written. -/

namespace ItemExpr

/-! ### Texts -/

/-- The **text of a term** in placeholders. -/
def Term.text : Term String → String
  | .path target => target.text
  | .size target => Function.size.call [target.text]
  | .value placeholder => placeholder

/-- The function that tests whether an attribute exists or, if `negated`, does not. -/
def Function.existence (negated : Bool) : Function :=
  if negated then .attributeNotExists else .attributeExists

/-- The **text of a test** in placeholders. -/
def Test.text : Test String → String
  | .compare left comparison right => left.text ++ " " ++ comparison.word ++ " " ++ right.text
  | .between term lower upper => term.text ++ " BETWEEN " ++ lower.text ++ " AND " ++ upper.text
  | .among term first others =>
    term.text ++ " IN (" ++ ", ".intercalate ((first :: others).map Term.text) ++ ")"
  | .exists target negated => (Function.existence negated).call [target.text]
  | .hasType target code => Function.attributeType.call [target.text, code.text]
  | .beginsWith target start => Function.beginsWith.call [target.text, start.text]
  | .contains target element => Function.contains.call [target.text, element.text]

namespace Formula

mutual

/-- The **text of a formula** in placeholders. -/
def text : Formula String → String
  | .test leaf => leaf.text
  | .group connective members => (" " ++ connective.word ++ " ").intercalate (memberTexts members)
  | .not formula => "NOT (" ++ text formula ++ ")"

/-- The texts of the members of a group, groups among them in parentheses. -/
def memberTexts : List (Formula String) → List String
  | [] => []
  | member :: members =>
    (if member.isGroup then "(" ++ text member ++ ")" else text member) :: memberTexts members

end

@[simp] theorem isGroup_spell (f : Registration → String) (formula : Formula AttributeValue) :
    (formula.spell f).isGroup = formula.isGroup := by
  cases formula <;> rfl

end Formula

/-! ### Phrases -/

/-- The phrase of a path. -/
def Path.phrase (path : Path) : Phrase String where
  registrations := path.mentions
  write f := (path.spell f).text
  write_congr agree := by rw [Path.spell_congr agree]

/-- The phrase of a term. -/
def Term.phrase (term : Term AttributeValue) : Phrase String where
  registrations := term.mentions
  write f := (term.spell f).text
  write_congr agree := by rw [Term.spell_congr agree]

/-- The phrase of a list of terms. -/
def Term.phraseAll (terms : List (Term AttributeValue)) : Phrase (List String) where
  registrations := terms.flatMap Term.mentions
  write f := (terms.map (Term.spell f)).map Term.text
  write_congr agree := by rw [Term.map_spell_congr agree]

/-- The phrase of a test. -/
def Test.phrase (test : Test AttributeValue) : Phrase String where
  registrations := test.mentions
  write f := (test.spell f).text
  write_congr agree := by rw [Test.spell_congr agree]

namespace Formula

/-- The phrase of a formula. -/
def phrase (formula : Formula AttributeValue) : Phrase String where
  registrations := formula.mentions
  write f := (formula.spell f).text
  write_congr agree := by rw [spell_congr agree]

/-- The phrase of the members of a group. -/
def memberPhrase (members : List (Formula AttributeValue)) : Phrase (List String) where
  registrations := memberMentions members
  write f := memberTexts (spellMembers f members)
  write_congr agree := by
    -- A group is spelled by spelling its members.
    have spelled := @spell_congr _ _ (.group .and members) agree
    rw [spell, spell] at spelled
    injection spelled with _ spelled
    rw [spelled]

end Formula

end ItemExpr
