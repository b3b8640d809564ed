import ItemExpr.Proofs.Condition.Collapse
import ItemExpr.Proofs.Formula.Tokens

/-! # Joined conditions

`Condition.join` puts a condition behind the members of a group of its connective, where a group of
two would stand it beside that group. The normal form does not show the difference, as long as the
group on the left has members (`normal_join`), and a condition compiles as its normal form does.

A group of two that compiles does so part by part: its left member compiles on the table at hand and
its right one on the table after that, because the text of each part stands in the text of the whole
(`compileClause_pair`). -/

namespace ItemExpr

open Compile

/-! ### Texts of parts -/

/-- Texts with a separator between them are no shorter than some of them. -/
theorem utf8ByteSize_intercalate_append (separator : String) (first second : List String) :
    (separator.intercalate first).utf8ByteSize ≤
        (separator.intercalate (first ++ second)).utf8ByteSize ∧
      (separator.intercalate second).utf8ByteSize ≤
        (separator.intercalate (first ++ second)).utf8ByteSize := by
  by_cases noFirst : first = []
  · subst noFirst
    exact ⟨Nat.zero_le _, Nat.le_refl _⟩
  by_cases noSecond : second = []
  · subst noSecond
    rw [List.append_nil]
    exact ⟨Nat.le_refl _, Nat.zero_le _⟩
  rw [String.intercalate_append_of_ne_nil noFirst noSecond, String.utf8ByteSize_append,
    String.utf8ByteSize_append]
  omega

namespace Formula

/-- Whether a formula stands in a group of a connective **as some members**: as its own, if it is a
group of that connective, or as itself. -/
def StandsAs (connective : Connective) (formula : Formula AttributeValue)
    (members : List (Formula AttributeValue)) : Prop :=
  formula = .group connective members ∨ members = [formula]

variable {connective : Connective} {formula : Formula AttributeValue}
  {members : List (Formula AttributeValue)}

/-- The members as which a formula stands mention what it mentions. -/
theorem StandsAs.memberMentions (stands : formula.StandsAs connective members) :
    memberMentions members = formula.mentions := by
  rcases stands with rfl | rfl
  · rfl
  · exact List.append_nil _

/-- The text of a formula is no longer than the texts of the members as which it stands. -/
theorem StandsAs.utf8ByteSize_le (stands : formula.StandsAs connective members)
    (f : Registration → String) :
    (formula.spell f).text.utf8ByteSize ≤
      ((" " ++ connective.word ++ " ").intercalate
        (memberTexts (spellMembers f members))).utf8ByteSize := by
  rcases stands with rfl | rfl
  · exact Nat.le_refl _
  · -- As a member it may have parentheses around it.
    rw [spellMembers_eq_map, memberTexts_eq_map, List.map_singleton, List.map_singleton,
      String.intercalate_singleton, textAsMember]
    split
    · rw [String.utf8ByteSize_append, String.utf8ByteSize_append]
      omega
    · exact Nat.le_refl _

/-- A group of the members as which two formulas stand mentions what these mention. -/
theorem StandsAs.mentions_group {other : Formula AttributeValue}
    {members' : List (Formula AttributeValue)} (stands : formula.StandsAs connective members)
    (stands' : other.StandsAs connective members') :
    (Formula.group connective (members ++ members')).mentions =
      formula.mentions ++ other.mentions := by
  rw [mentions, memberMentions_eq_flatMap, List.flatMap_append, ← memberMentions_eq_flatMap,
    ← memberMentions_eq_flatMap, stands.memberMentions, stands'.memberMentions]

/-- The texts of members, one list of members behind the other. -/
theorem memberTexts_spellMembers_append (f : Registration → String)
    (first second : List (Formula AttributeValue)) :
    memberTexts (spellMembers f (first ++ second)) =
      memberTexts (spellMembers f first) ++ memberTexts (spellMembers f second) := by
  simp only [spellMembers_eq_map, memberTexts_eq_map, List.map_append]

/-- The texts of two formulas are no longer than the text of a group of the members as which they
stand. -/
theorem StandsAs.utf8ByteSize_le_group {other : Formula AttributeValue}
    {members' : List (Formula AttributeValue)} (stands : formula.StandsAs connective members)
    (stands' : other.StandsAs connective members') (f : Registration → String) :
    (formula.spell f).text.utf8ByteSize ≤
        ((Formula.group connective (members ++ members')).spell f).text.utf8ByteSize ∧
      (other.spell f).text.utf8ByteSize ≤
        ((Formula.group connective (members ++ members')).spell f).text.utf8ByteSize := by
  have whole : ((Formula.group connective (members ++ members')).spell f).text =
      (" " ++ connective.word ++ " ").intercalate
        (memberTexts (spellMembers f members) ++ memberTexts (spellMembers f members')) := by
    rw [← memberTexts_spellMembers_append]
    rfl
  have lengths := utf8ByteSize_intercalate_append (" " ++ connective.word ++ " ")
    (memberTexts (spellMembers f members)) (memberTexts (spellMembers f members'))
  rw [whole]
  exact ⟨(stands.utf8ByteSize_le f).trans lengths.1, (stands'.utf8ByteSize_le f).trans lengths.2⟩

end Formula

namespace Condition

variable {connective : Connective} {left right : Condition}

/-! ### Normal forms -/

theorem normalMembers_append (connective : Connective) (first second : List Condition) :
    normalMembers connective (first ++ second) =
      normalMembers connective first ++ normalMembers connective second := by
  induction first with
  | nil => rw [normalMembers_nil, List.nil_append, List.nil_append]
  | cons member first ih =>
    rw [List.cons_append, normalMembers_cons, normalMembers_cons, ih, List.append_assoc]

theorem normalMembers_ne_nil {members : List Condition} (nonempty : members ≠ []) :
    normalMembers connective members ≠ [] := by
  cases members with
  | nil => exact absurd rfl nonempty
  | cons member members =>
    rw [normalMembers_cons]
    exact List.append_ne_nil_of_left_ne_nil (splice_ne_nil connective _) _

/-- In a group of its own connective, a group that has members stands as the normal forms of
these. -/
theorem splice_normal_group {members : List Condition} (nonempty : members ≠ []) :
    splice connective (normal (.group connective members)) =
      normalMembers connective members := by
  by_cases single : members.length = 1
  · obtain ⟨only, rfl⟩ := List.length_eq_one_iff.1 single
    rw [normal_group_singleton, normalMembers_cons, normalMembers_nil, List.append_nil]
  · rw [normal_group_of_length single]
    rcases splice_cases connective (.group connective (normalMembers connective members)) with
      ⟨_, _, same, spliced⟩ | ⟨other, _⟩
    · cases same
      exact spliced
    · exact absurd (other _ rfl) (normalMembers_ne_nil nonempty)

/-- What is no group of a connective is joined to another condition as in a group of two. -/
theorem join_of_forall_ne (other : ∀ members, left ≠ .group connective members) :
    join connective left right = .group connective [left, right] := by
  cases left with
  | group connective' members =>
    refine if_neg ?_
    rintro rfl
    exact other members rfl
  | _ => rfl

/-- What was joined is a group that has members. -/
theorem join_ne_group_nil (connective : Connective) (left right : Condition) :
    join connective left right ≠ .group connective [] := by
  by_cases group : ∃ inner, left = .group connective inner
  · obtain ⟨inner, rfl⟩ := group
    rw [join_group]
    intro same
    injection same with _ none
    exact List.append_ne_nil_of_right_ne_nil inner (List.cons_ne_nil right []) none
  · rw [join_of_forall_ne fun inner same => group ⟨inner, same⟩]
    rintro ⟨⟩

/-- The normal form of a group of two. -/
theorem normal_pair :
    (Condition.group connective [left, right]).normal =
      .group connective (splice connective left.normal ++ splice connective right.normal) := by
  rw [normal_group_of_length (by simp), normalMembers_cons, normalMembers_cons, normalMembers_nil,
    List.append_nil]

/-- **Joined conditions have the normal form of the group of both**, unless the left one is a group
of the connective that has no members. -/
theorem normal_join (members : left ≠ .group connective []) :
    (join connective left right).normal = (Condition.group connective [left, right]).normal := by
  by_cases group : ∃ inner, left = .group connective inner
  · obtain ⟨inner, rfl⟩ := group
    have nonempty : inner ≠ [] := by
      rintro rfl
      exact members rfl
    have several : (inner ++ [right]).length ≠ 1 := by
      have := List.length_pos_of_ne_nil nonempty
      rw [List.length_append, List.length_singleton]
      omega
    -- Both are the normal forms of the inner members, and of the right member behind them.
    rw [join_group, normal_group_of_length several, normalMembers_append, normalMembers_cons,
      normalMembers_nil, List.append_nil, normal_pair, splice_normal_group nonempty]
  · rw [join_of_forall_ne fun inner same => group ⟨inner, same⟩]

/-- **Conditions joined one after the other have the normal form of the group of all**, unless the
first one is a group of the connective that has no members. -/
theorem normal_foldl_join {first : Condition} (members : first ≠ .group connective [])
    (rest : List Condition) :
    (rest.foldl (join connective) first).normal =
      (Condition.group connective (first :: rest)).normal := by
  induction rest generalizing first with
  | nil => rw [List.foldl_nil, normal_group_singleton]
  | cons next rest ih =>
    rw [List.foldl_cons, ih (join_ne_group_nil connective first next)]
    by_cases last : rest = []
    · subst last
      rw [normal_group_singleton, normal_join members]
    · -- In the group of all, what was joined first stands as the normal forms of its two parts.
      have joined : splice connective (join connective first next).normal =
          normalMembers connective [first, next] := by
        rw [normal_join members, splice_normal_group (List.cons_ne_nil first [next])]
      have several : (join connective first next :: rest).length ≠ 1 := by
        have := List.length_pos_of_ne_nil last
        rw [List.length_cons]
        omega
      rw [normal_group_of_length several, normal_group_of_length (by simp), normalMembers_cons,
        joined, ← normalMembers_append]
      rfl

/-- Conditions of one normal form compile alike. -/
theorem compileClause_congr {condition other : Condition} (same : condition.normal = other.normal)
    (clause : Clause) : condition.compileClause clause = other.compileClause clause := by
  rw [compileClause, compileClause, same]

/-! ### Reading groups of two -/

variable {settings : Settings}

/-- Members that can be read have been spliced from a condition that can be read, and that says what
stands as theirs. -/
theorem exists_read_of_readMembers_splice {condition : Condition}
    {formulas : List (Formula AttributeValue)}
    (reads : readMembers settings (splice connective condition) = .ok formulas) :
    ∃ said, condition.read settings = .ok said ∧ said.StandsAs connective formulas := by
  rcases splice_cases connective condition with
    ⟨members, nonempty, rfl, spliced⟩ | ⟨_, spliced⟩
  · rw [spliced] at reads
    exact ⟨_, read_group_iff.2 ⟨nonempty, formulas, reads, rfl⟩, Or.inl rfl⟩
  · rw [spliced] at reads
    obtain ⟨said, _, read, ⟨⟩, rfl⟩ := readMembers_cons_iff.1 reads
    exact ⟨said, read, Or.inr rfl⟩

/-- What a group of two says is what its members say, side by side. -/
theorem read_pair {said : Formula AttributeValue}
    (reads : (Condition.group connective [left, right]).normal.read settings = .ok said) :
    ∃ first second formulas formulas', left.normal.read settings = .ok first ∧
      right.normal.read settings = .ok second ∧ first.StandsAs connective formulas ∧
      second.StandsAs connective formulas' ∧ said = .group connective (formulas ++ formulas') := by
  rw [normal_pair] at reads
  obtain ⟨_, _, members, rfl⟩ := read_group_iff.1 reads
  obtain ⟨formulas, formulas', ofLeft, ofRight, rfl⟩ := readMembers_append_iff.1 members
  obtain ⟨first, readFirst, stands⟩ := exists_read_of_readMembers_splice ofLeft
  obtain ⟨second, readSecond, stands'⟩ := exists_read_of_readMembers_splice ofRight
  exact ⟨first, second, formulas, formulas', readFirst, readSecond, stands, stands', rfl⟩

/-! ### Compiling part by part -/

/-- A condition that can be read and whose text is not too long compiles. -/
theorem runOn_compileClause_of_fits {condition : Condition} {table : Placeholders}
    {said : Formula AttributeValue} (reads : condition.normal.read table.settings = .ok said)
    (fits : (said.phrase.written table).utf8ByteSize ≤ table.settings.maxBytes)
    (clause : Clause) :
    (condition.compileClause clause).runOn table =
      (.ok (said.phrase.written table), said.phrase.after table) := by
  rw [runOn_compileClause, reads]
  exact clauseOutcome_of_fits fits

/-- **A group of two compiles part by part**: its left member compiles on the same table, and its
right member on the table after that, which is then the one after the group. -/
theorem compileClause_pair {clause : Clause} {table after : Placeholders} {text : String}
    (compiled : ((Condition.group connective [left, right]).compileClause clause).runOn table =
      (.ok text, after)) :
    ∃ between first second, (left.compileClause clause).runOn table = (.ok first, between) ∧
      (right.compileClause clause).runOn between = (.ok second, after) := by
  rw [runOn_compileClause] at compiled
  have fits := fits_of_clauseOutcome_eq_ok compiled
  obtain ⟨phrase, means, rfl, rfl⟩ := clauseOutcome_eq_ok compiled
  obtain ⟨said, reads, rfl⟩ := map_eq_ok_iff.1 means
  obtain ⟨first, second, formulas, formulas', ofLeft, ofRight, stands, stands', rfl⟩ :=
    read_pair reads
  have parted : (Formula.group connective (formulas ++ formulas')).phrase.after table =
      second.phrase.after (first.phrase.after table) := by
    show table.registerAll (Formula.group connective (formulas ++ formulas')).mentions = _
    rw [stands.mentions_group stands', Placeholders.registerAll_append]
    rfl
  -- The text of the group, spelled by the table after both parts, has the texts of the parts in it.
  have whole : (Formula.group connective (formulas ++ formulas')).phrase.written table =
      ((Formula.group connective (formulas ++ formulas')).spell
        (second.phrase.after (first.phrase.after table)).spell).text := by
    rw [← parted]
    rfl
  rw [whole] at fits
  obtain ⟨shorter, shorter'⟩ := stands.utf8ByteSize_le_group stands'
    (second.phrase.after (first.phrase.after table)).spell
  have fitsLeft : (first.phrase.written table).utf8ByteSize ≤ table.settings.maxBytes := by
    rw [← first.phrase.write_registerAll table second.mentions]
    exact shorter.trans fits
  have fitsRight : (second.phrase.written (first.phrase.after table)).utf8ByteSize ≤
      (first.phrase.after table).settings.maxBytes := by
    rw [Phrase.settings_after]
    exact shorter'.trans fits
  refine ⟨_, _, second.phrase.written (first.phrase.after table),
    runOn_compileClause_of_fits ofLeft fitsLeft clause, ?_⟩
  rw [parted]
  refine runOn_compileClause_of_fits ?_ fitsRight clause
  rw [Phrase.settings_after]
  exact ofRight

/-! ### What only its length can refuse -/

/-- Whether a condition **compiles but for its length** on a table: it compiles, or nothing is
against it but that its text is too long. -/
def CompilesButForLength (condition : Condition) (clause : Clause) (table : Placeholders) : Prop :=
  (∃ text after, (condition.compileClause clause).runOn table = (.ok text, after)) ∨
    ∃ length, table.settings.maxBytes < length ∧
      (condition.compileClause clause).runOn table =
        (.error (.tooLong clause length table.settings.maxBytes), table)

/-- A condition that can be read compiles but for its length. -/
theorem compilesButForLength_of_read {condition : Condition} {table : Placeholders}
    {said : Formula AttributeValue} (reads : condition.normal.read table.settings = .ok said)
    (clause : Clause) : condition.CompilesButForLength clause table := by
  by_cases fits : (said.phrase.written table).utf8ByteSize ≤ table.settings.maxBytes
  · exact Or.inl ⟨_, _, runOn_compileClause_of_fits reads fits clause⟩
  · refine Or.inr ⟨_, Nat.lt_of_not_le fits, ?_⟩
    rw [runOn_compileClause, reads]
    exact clauseOutcome_of_not_fits fits

/-- A condition that compiles can be read. -/
theorem exists_read_of_compileClause {condition : Condition} {clause : Clause}
    {table after : Placeholders} {text : String}
    (compiled : (condition.compileClause clause).runOn table = (.ok text, after)) :
    ∃ said, condition.normal.read table.settings = .ok said := by
  rw [runOn_compileClause] at compiled
  obtain ⟨_, means, _, _⟩ := clauseOutcome_eq_ok compiled
  obtain ⟨said, reads, _⟩ := map_eq_ok_iff.1 means
  exact ⟨said, reads⟩

/-- If conditions joined one after the other can be read, so can each of them. -/
theorem read_of_read_foldl_join {first : Condition} {rest : List Condition}
    {said : Formula AttributeValue} (members : first ≠ .group connective [])
    (reads : (rest.foldl (join connective) first).normal.read settings = .ok said) :
    ∀ condition ∈ first :: rest, ∃ each, condition.normal.read settings = .ok each := by
  induction rest generalizing first with
  | nil =>
    intro condition mem
    rw [List.mem_singleton.1 mem]
    exact ⟨said, reads⟩
  | cons next rest ih =>
    -- What was joined is a group that has members.
    rw [List.foldl_cons] at reads
    have each := ih (join_ne_group_nil connective first next) reads
    obtain ⟨joined, readsJoined⟩ := each _ List.mem_cons_self
    rw [normal_join members] at readsJoined
    obtain ⟨_, _, _, _, readsFirst, readsNext, _⟩ := read_pair readsJoined
    rw [List.forall_mem_cons, List.forall_mem_cons]
    exact ⟨⟨_, readsFirst⟩, ⟨_, readsNext⟩,
      fun condition mem => each condition (List.mem_cons_of_mem _ mem)⟩

end Condition

end ItemExpr
