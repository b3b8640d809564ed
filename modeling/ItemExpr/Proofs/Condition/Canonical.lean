import ItemExpr.Proofs.Condition.Faithful
import ItemExpr.Proofs.Condition.Joined
import ItemExpr.Proofs.Formula.Rendering

/-! # Conditions have one text

To take a superfluous group out of a condition changes nothing in its normal form
(`normal_of_collapse`), and out of a normal form no group can be taken any more
(`not_collapse_normal`), so that the normal form is the one tree that all ways of taking groups out
end in (`eq_normal_of_collapses`). Conditions that become one tree are therefore compiled alike.

The text of a condition has parentheses exactly where that tree needs them: around what a NOT
applies to, and around a group that stands in a group of the other connective, once each
(`Bracketed`). All others belong to the calls in its tests. -/

namespace ItemExpr.Condition

open Compile Relation

variable {connective : Connective}

/-! ### One normal form -/

/-- Members stand the same in a normal form if one of them is replaced by a condition that stands
for as much. -/
theorem normalMembers_middle {condition condition' : Condition} (before after : List Condition)
    (same : splice connective condition.normal = splice connective condition'.normal) :
    normalMembers connective (before ++ condition :: after) =
      normalMembers connective (before ++ condition' :: after) := by
  rw [normalMembers_append, normalMembers_append, normalMembers_cons, normalMembers_cons, same]

/-- To take a superfluous group out changes nothing in the normal form. -/
theorem normal_of_collapse {condition condition' : Condition}
    (step : Collapse condition condition') : condition.normal = condition'.normal := by
  induction step with
  | single connective only => exact normal_group_singleton connective only
  | splice connective before inner after nonempty =>
    by_cases alone : before = [] ∧ after = []
    · obtain ⟨rfl, rfl⟩ := alone
      rw [List.nil_append, List.nil_append, List.append_nil, normal_group_singleton]
    · have some : 0 < before.length + after.length := by
        by_contra none
        refine alone ⟨List.length_eq_zero_iff.1 ?_, List.length_eq_zero_iff.1 ?_⟩ <;> omega
      have inside := List.length_pos_of_ne_nil nonempty
      have several : (before ++ .group connective inner :: after).length ≠ 1 := by
        rw [List.length_append, List.length_cons]
        omega
      have several' : (before ++ inner ++ after).length ≠ 1 := by
        rw [List.length_append, List.length_append]
        omega
      rw [normal_group_of_length several, normal_group_of_length several', normalMembers_append,
        normalMembers_cons, splice_normal_group nonempty, normalMembers_append,
        normalMembers_append, List.append_assoc]
  | member connective before after step ih =>
    rename_i condition condition'
    by_cases alone : before.length + after.length = 0
    · have noBefore : before = [] := List.length_eq_zero_iff.1 (by omega)
      have noAfter : after = [] := List.length_eq_zero_iff.1 (by omega)
      subst noBefore noAfter
      rw [List.nil_append, List.nil_append, normal_group_singleton, normal_group_singleton, ih]
    · have several : ∀ member : Condition, (before ++ member :: after).length ≠ 1 := by
        intro member
        rw [List.length_append, List.length_cons]
        omega
      have middle := normalMembers_middle before after (congrArg (Condition.splice connective) ih)
      rw [normal_group_of_length (several condition), normal_group_of_length (several condition'),
        middle]
  | not step ih => rw [normal_not, normal_not, ih]

/-- To take superfluous groups out changes nothing in the normal form. -/
theorem normal_of_collapses {condition condition' : Condition}
    (steps : Collapses condition condition') : condition.normal = condition'.normal := by
  induction steps with
  | refl => rfl
  | tail _ step ih => exact ih.trans (normal_of_collapse step)

/-! ### Nothing is left in a normal form -/

/-- What can be taken out of a group: the group around its only member, a group of its connective
among the members, or a group out of a member. -/
theorem Collapse.group_cases {members : List Condition} {condition : Condition}
    (step : Collapse (.group connective members) condition) :
    members.length = 1 ∨ (∃ inner, inner ≠ [] ∧ .group connective inner ∈ members) ∨
      ∃ member ∈ members, ∃ member', Collapse member member' := by
  cases step with
  | single => exact Or.inl rfl
  | splice _ before inner after nonempty =>
    exact Or.inr (Or.inl ⟨inner, nonempty, by simp⟩)
  | member _ before after step =>
    exact Or.inr (Or.inr ⟨_, by simp, _, step⟩)

/-- If nothing can be taken out of a condition, then nothing can be taken out of what is spliced
from it, and none of that is a group of the connective that has members. -/
theorem not_collapse_of_mem_splice {condition member : Condition}
    (settled : ∀ further, ¬Collapse condition further)
    (mem : member ∈ splice connective condition) :
    (∀ inner, inner ≠ [] → member ≠ .group connective inner) ∧
      ∀ further, ¬Collapse member further := by
  rcases splice_cases connective condition with
    ⟨members, nonempty, rfl, spliced⟩ | ⟨other, spliced⟩
  · rw [spliced] at mem
    obtain ⟨before, after, rfl⟩ := List.append_of_mem mem
    constructor
    · rintro inner some rfl
      exact settled _ (.splice connective before inner after some)
    · intro further step
      exact settled _ (.member connective before after step)
  · rw [spliced, List.mem_singleton] at mem
    subst mem
    refine ⟨?_, settled⟩
    intro inner some same
    exact some (other inner same)

/-- If nothing can be taken out of the normal forms of some members, then nothing can be taken out
of the members that they make, which are at least as many. -/
theorem not_collapse_of_mem_normalMembers {members : List Condition}
    (settled : ∀ member ∈ members, ∀ further, ¬Collapse member.normal further) :
    members.length ≤ (normalMembers connective members).length ∧
      ∀ member ∈ normalMembers connective members,
        (∀ inner, inner ≠ [] → member ≠ .group connective inner) ∧
          ∀ further, ¬Collapse member further := by
  induction members with
  | nil => simp
  | cons first members ih =>
    rw [List.forall_mem_cons] at settled
    obtain ⟨length, each⟩ := ih settled.2
    rw [normalMembers_cons, List.forall_mem_append, List.length_append, List.length_cons]
    have some := List.length_pos_of_ne_nil (splice_ne_nil connective first.normal)
    refine ⟨by omega, ?_, each⟩
    intro member mem
    exact not_collapse_of_mem_splice settled.1 mem

/-- **Nothing can be taken out of a normal form.** -/
theorem not_collapse_normal (condition : Condition) :
    ∀ further, ¬Collapse condition.normal further := by
  induction condition with
  | test condition test =>
    rw [normal_of_isTest test]
    intro further step
    cases step <;> cases test
  | not condition ih =>
    rw [normal_not]
    intro further step
    cases step with
    | not step => exact ih _ step
  | group connective members ih =>
    by_cases single : members.length = 1
    · obtain ⟨only, rfl⟩ := List.length_eq_one_iff.1 single
      rw [normal_group_singleton]
      exact ih only (List.mem_singleton_self only)
    · rw [normal_group_of_length single]
      obtain ⟨length, each⟩ := @not_collapse_of_mem_normalMembers connective members ih
      intro further step
      rcases step.group_cases with one | ⟨inner, some, mem⟩ | ⟨member, mem, _, step⟩
      · -- There was no member at all then, and there is none in the normal form.
        have none : members = [] := List.length_eq_zero_iff.1 (by omega)
        rw [none, normalMembers_nil] at one
        cases one
      · exact (each _ mem).1 inner some rfl
      · exact (each member mem).2 _ step

/-- What is reached when nothing can be taken out any more is the normal form. -/
theorem eq_normal_of_collapses {condition collapsed : Condition}
    (steps : condition.Collapses collapsed) (settled : ∀ further, ¬Collapse collapsed further) :
    collapsed = condition.normal := by
  rw [normal_of_collapses steps]
  rcases (collapses_normal collapsed).cases_head with same | ⟨further, step, _⟩
  · exact same
  · exact absurd step (settled further)

/-! ### Where parentheses stand -/

mutual

/-- Whether tokens are those of a condition **with no parentheses but the necessary ones**: those of
calls, one pair around what NOT applies to and one pair around each group in a group of the other
connective. No group has less than two members. -/
inductive Bracketed : Condition → List Token → Prop
  /-- A test has the parentheses of its calls. -/
  | test {condition : Condition} {tokens : List Token} (test : condition.isTest = true)
      (calls : ParensOfCalls tokens) : Bracketed condition tokens
  /-- What NOT applies to is in parentheses. -/
  | not {condition : Condition} {tokens : List Token} (inside : Bracketed condition tokens) :
      Bracketed (.not condition) (.not :: .opening :: (tokens ++ [.closing]))
  /-- The members of a group stand side by side. -/
  | group {connective : Connective} {members : List Condition} {parts : List (List Token)}
      (several : 2 ≤ members.length) (each : BracketedMembers connective members parts) :
      Bracketed (.group connective members) ([Token.connective connective].intercalate parts)

/-- Whether lists of tokens are those of the members of a group of a connective, one by one. -/
inductive BracketedMembers : Connective → List Condition → List (List Token) → Prop
  /-- No members. -/
  | nil {connective : Connective} : BracketedMembers connective [] []
  /-- A member that is no group stands as it is. -/
  | plain {connective : Connective} {member : Condition} {tokens : List Token}
      {members : List Condition} {parts : List (List Token)} (noGroup : member.isGroup = false)
      (first : Bracketed member tokens) (rest : BracketedMembers connective members parts) :
      BracketedMembers connective (member :: members) (tokens :: parts)
  /-- A member that is a group is one of the other connective, and in parentheses. -/
  | group {connective connective' : Connective} {inner : List Condition} {tokens : List Token}
      {members : List Condition} {parts : List (List Token)} (other : connective' ≠ connective)
      (first : Bracketed (.group connective' inner) tokens)
      (rest : BracketedMembers connective members parts) :
      BracketedMembers connective (.group connective' inner :: members)
        ((.opening :: (tokens ++ [.closing])) :: parts)

end

variable {settings : Settings}

/-- Each member that is read says one formula. -/
theorem length_of_readMembers {members : List Condition}
    {formulas : List (Formula AttributeValue)}
    (reads : readMembers settings members = .ok formulas) : formulas.length = members.length := by
  induction members generalizing formulas with
  | nil =>
    rw [readMembers] at reads
    cases reads
    rfl
  | cons member members ih =>
    obtain ⟨said, rest, _, reads', rfl⟩ := readMembers_cons_iff.1 reads
    rw [List.length_cons, List.length_cons, ih reads']

/-- The tokens of members that say flat formulas, if those of each member are bracketed. -/
theorem bracketedMembers_of_read {members : List Condition}
    {formulas : List (Formula AttributeValue)} (f : Registration → String)
    (each : ∀ member ∈ members, ∀ said, member.read settings = .ok said → said.Flat →
      Bracketed member (said.spell f).tokens)
    (reads : readMembers settings members = .ok formulas)
    (flat : Formula.FlatMembers connective formulas) :
    BracketedMembers connective members
      (Formula.memberTokens (Formula.spellMembers f formulas)) := by
  induction members generalizing formulas with
  | nil =>
    rw [readMembers] at reads
    cases reads
    exact .nil
  | cons member members ih =>
    obtain ⟨said, rest, read, reads', rfl⟩ := readMembers_cons_iff.1 reads
    rw [List.forall_mem_cons] at each
    obtain ⟨⟨flatFirst, other⟩, flatRest⟩ := flat
    have first := each.1 said read flatFirst
    have behind := ih each.2 reads' flatRest
    have group := isGroup_of_read read
    rw [Formula.spellMembers, Formula.memberTokens, Formula.isGroup_spell, group]
    cases member with
    | group connective' inner =>
      obtain ⟨_, formulas, _, rfl⟩ := read_group_iff.1 read
      exact .group (of_decide_eq_false other) first behind
    | _ => exact .plain rfl first behind

/-- The tokens of what a condition says, if that is flat, have no parentheses but the necessary
ones. -/
theorem bracketed_of_read {condition : Condition} {said : Formula AttributeValue}
    (f : Registration → String) (reads : condition.read settings = .ok said) (flat : said.Flat) :
    Bracketed condition (said.spell f).tokens := by
  induction condition generalizing said with
  | test condition test =>
    obtain ⟨leaf, rfl⟩ := eq_test_of_read test reads
    exact .test test (leaf.spell f).parensOfCalls_tokens
  | not condition ih =>
    rw [read] at reads
    obtain ⟨inner, reads', ⟨⟩⟩ := bind_eq_ok_iff.1 reads
    exact .not (ih reads' flat)
  | group connective members ih =>
    obtain ⟨_, formulas, reads', rfl⟩ := read_group_iff.1 reads
    obtain ⟨several, flatMembers⟩ := flat
    refine .group ?_ (bracketedMembers_of_read f (fun member mem _ => ih member mem) reads'
      flatMembers)
    rw [← length_of_readMembers reads']
    exact several

/-! ### The text of a condition -/

/-- Whether a text **brackets** a condition in the placeholders of a table: it is what tokens render
that have no parentheses but the necessary ones around the parts of the tree that is left when no
superfluous group can be taken out of the condition. The placeholders among the tokens are those
that the table gives, and where the table keeps placeholders apart, the tokens are those that the
text is read in. -/
def IsBracketedBy (condition : Condition) (text : String) (table : Placeholders) : Prop :=
  ∃ collapsed tokens, condition.Collapses collapsed ∧ (∀ further, ¬Collapse collapsed further) ∧
    Bracketed collapsed tokens ∧ text = Token.render tokens ∧
    (∀ mention : Mention String, mention.token ∈ tokens →
      ∃ registration, table.Covers [registration] ∧
        mention = Mention.spell table.spell registration) ∧
    (table.Consistent → Settings.isStem table.settings.stem = true → lex text.toList = some tokens)

/-- The text of a condition that compiles brackets it. -/
theorem isBracketedBy_of_compileClause {condition : Condition} {clause : Clause}
    {table after : Placeholders} {text : String}
    (compiled : (condition.compileClause clause).runOn table = (.ok text, after)) :
    condition.IsBracketedBy text after := by
  rw [runOn_compileClause] at compiled
  obtain ⟨phrase, means, rfl, rfl⟩ := clauseOutcome_eq_ok compiled
  obtain ⟨said, reads, rfl⟩ := map_eq_ok_iff.1 means
  have covers : (said.phrase.after table).Covers said.mentions :=
    table.covers_registerAll said.mentions
  refine ⟨condition.normal, (said.spell (said.phrase.after table).spell).tokens,
    condition.collapses_normal, condition.not_collapse_normal,
    bracketed_of_read _ reads (flat_of_read_normal reads), (Formula.render_tokens _).symm, ?_, ?_⟩
  · intro mention mem
    rw [Formula.token_mem_tokens, Formula.mentions_spell] at mem
    obtain ⟨registration, mem', rfl⟩ := List.mem_map.1 mem
    refine ⟨registration, ?_, rfl⟩
    intro other only
    rw [List.mem_singleton.1 only]
    exact covers registration mem'
  · intro consistent stem
    refine (Formula.lexes_text ?_).lex_eq
    rw [Formula.mentions_spell]
    exact consistent.legible stem covers

/-- **Conditions have one text.** Conditions that become the same tree when superfluous groups are
taken out are compiled alike on every table, to the same text or the same refusal and with the same
table after it; and every text has no parentheses but the necessary ones. -/
theorem compileClause_canonical (condition : Condition) (clause : Clause) (table : Placeholders) :
    (∀ other, Join Collapses condition other →
      (condition.compileClause clause).runOn table = (other.compileClause clause).runOn table) ∧
    ∀ text after, (condition.compileClause clause).runOn table = (.ok text, after) →
      condition.IsBracketedBy text after := by
  constructor
  · rintro other ⟨tree, steps, steps'⟩
    have same : condition.normal = other.normal :=
      (normal_of_collapses steps).trans (normal_of_collapses steps').symm
    rw [compileClause_congr same]
  · intro text after compiled
    exact isBracketedBy_of_compileClause compiled

/-- Taking out a group of one member brings out groups of its connective on either side of it: both
conditions compile to one text, with the parentheses that are left. -/
theorem compileClause_canonical_nested_groups :
    (compileClause .condition (.group .or [.group .and [.exists "a" false],
        .group .or [.not (.group .and [.exists "b" true]),
          .group .and [.exists "c" false, .group .or [.group .and [.exists "d" false]]]]])).runOn
        (Placeholders.empty {}) =
      (compileClause .condition (.group .or [.exists "a" false, .not (.exists "b" true),
        .group .and [.exists "c" false, .exists "d" false]])).runOn (Placeholders.empty {}) ∧
    ∃ after, (compileClause .condition (.group .or [.exists "a" false, .not (.exists "b" true),
        .group .and [.exists "c" false, .exists "d" false]])).runOn (Placeholders.empty {}) =
        (.ok ("attribute_exists(#a) OR NOT (attribute_not_exists(#b)) OR " ++
          "(attribute_exists(#c) AND attribute_exists(#d))"), after) ∧
      IsBracketedBy (.group .or [.exists "a" false, .not (.exists "b" true),
          .group .and [.exists "c" false, .exists "d" false]])
        ("attribute_exists(#a) OR NOT (attribute_not_exists(#b)) OR " ++
          "(attribute_exists(#c) AND attribute_exists(#d))") after := by
  constructor
  · have normal : normal (.group .or [.group .and [.exists "a" false],
        .group .or [.not (.group .and [.exists "b" true]),
          .group .and [.exists "c" false, .group .or [.group .and [.exists "d" false]]]]]) =
        .group .or [.exists "a" false, .not (.exists "b" true),
          .group .and [.exists "c" false, .exists "d" false]] := by
      simp [normal, Condition.splice]
    refine (compileClause_canonical _ .condition (Placeholders.empty {})).1 _ ⟨_, ?_, .refl⟩
    rw [← normal]
    exact collapses_normal _
  · generalize ran : (compileClause .condition (.group .or [.exists "a" false,
      .not (.exists "b" true), .group .and [.exists "c" false, .exists "d" false]])).runOn
      (Placeholders.empty {}) = outcome
    have yields : outcome.1.toOption =
        some ("attribute_exists(#a) OR NOT (attribute_not_exists(#b)) OR " ++
          "(attribute_exists(#c) AND attribute_exists(#d))") := by
      rw [← ran]
      decide +kernel
    obtain ⟨outcome, after⟩ := outcome
    cases outcome with
    | error refusal => cases yields
    | ok text =>
      cases yields
      exact ⟨after, rfl,
        (compileClause_canonical _ .condition (Placeholders.empty {})).2 _ after ran⟩

end ItemExpr.Condition
