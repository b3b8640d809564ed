import ItemExpr.Proofs.Path.Grammar
import Mathlib.Data.List.Forall2

/-! # Paths written out

The elements of a path are its top-level attribute and its steps. Written out, an attribute has a
point in front of it, an index stands in brackets and may have leading zeros, and the first point
is left out (`Path.AreWritten`). A text is parsed exactly if it is some elements written out that
can be those of a path, and then as these (`Path.parse_exact`). So a path is parsed from its own
text, and the text of a path that was parsed is what was parsed without its leading zeros
(`Path.unpadded`). -/

namespace ItemExpr

namespace Path

open Compile

/-! ### Elements -/

/-- The **elements of a path**: its top-level attribute and its steps. -/
def elements (path : Path) : List Step := .field path.root :: path.steps

/-- Whether names and indexes can stand in a path. -/
@[mk_iff]
structure AreSound (elements : List Step) : Prop where
  /-- Each name can be that of an attribute. -/
  names : ∀ name, .field name ∈ elements → IsName name.toList
  /-- Each index fits in 64 bits. -/
  indexes : ∀ position, .index position ∈ elements → position < Number.wordBound

/-- Whether elements **can be those of a path**. -/
structure AreLegal (elements : List Step) : Prop extends AreSound elements where
  /-- The first element is an attribute. -/
  first : ∃ name steps, elements = .field name :: steps

/-- Whether characters are an element **written out**. -/
inductive Step.IsWritten : Step → List Char → Prop where
  /-- A point and a name. -/
  | field (name : String) : IsWritten (.field name) ('.' :: name.toList)
  /-- A numeral in brackets, with leading zeros. -/
  | index (zeros position : Nat) :
    IsWritten (.index position)
      ('[' :: (List.replicate zeros '0' ++ Number.digitsOf position ++ [']']))

/-- Whether a text is elements **written out** one after the other, without the first point. -/
def AreWritten (elements : List Step) (text : String) : Prop :=
  ∃ parts, List.Forall₂ Step.IsWritten elements parts ∧ '.' :: text.toList = parts.flatten

theorem areSound_nil : AreSound [] := ⟨nofun, nofun⟩

theorem areSound_field {name : String} {steps : List Step} :
    AreSound (.field name :: steps) ↔ IsName name.toList ∧ AreSound steps := by
  simp [areSound_iff, and_assoc]

theorem areSound_index {position : Nat} {steps : List Step} :
    AreSound (.index position :: steps) ↔ position < Number.wordBound ∧ AreSound steps := by
  simp [areSound_iff, and_left_comm]

/-- The elements of a path are legal if its root is a name and its steps are sound. -/
theorem areLegal_elements_iff {path : Path} :
    AreLegal path.elements ↔ IsName path.root.toList ∧ AreSound path.steps := by
  rw [← areSound_field]
  constructor
  · intro legal
    exact legal.toAreSound
  · intro sound
    exact ⟨sound, path.root, path.steps, rfl⟩

/-! ### Written out -/

/-- Steps are spelled by characters exactly if they are sound and written out one by one. -/
theorem areSpelledBy_iff {steps : List Step} {cs : List Char} :
    AreSpelledBy steps cs ↔
      AreSound steps ∧ ∃ parts, List.Forall₂ Step.IsWritten steps parts ∧ cs = parts.flatten := by
  constructor
  · intro spelled
    induction spelled with
    | nil => exact ⟨areSound_nil, [], .nil, rfl⟩
    | @field name steps cs isName _ ih =>
      obtain ⟨sound, parts, written, rfl⟩ := ih
      exact ⟨areSound_field.2 ⟨isName, sound⟩, _, .cons (.field name) written, rfl⟩
    | @index position steps cs zeros small _ ih =>
      obtain ⟨sound, parts, written, rfl⟩ := ih
      refine ⟨areSound_index.2 ⟨small, sound⟩, _, .cons (.index zeros position) written, ?_⟩
      simp
  · rintro ⟨sound, parts, written, rfl⟩
    induction written with
    | nil => exact .nil
    | @cons step part steps parts first _ ih =>
      rw [List.flatten_cons]
      cases first with
      | field name =>
        obtain ⟨isName, sound⟩ := areSound_field.1 sound
        exact .field isName (ih sound)
      | index zeros position =>
        obtain ⟨small, sound⟩ := areSound_index.1 sound
        have spelled := AreSpelledBy.index zeros small (ih sound)
        simpa using spelled

/-- A path is spelled by a text exactly if its elements are legal and the text is these written
out. -/
theorem isSpelledBy_iff {path : Path} {text : String} :
    path.IsSpelledBy text ↔ AreLegal path.elements ∧ AreWritten path.elements text := by
  rw [areLegal_elements_iff, IsSpelledBy]
  constructor
  · rintro ⟨isName, cs, whole, spelled⟩
    obtain ⟨sound, parts, written, rfl⟩ := areSpelledBy_iff.1 spelled
    refine ⟨⟨isName, sound⟩, _, .cons (.field path.root) written, ?_⟩
    rw [whole]
    rfl
  · rintro ⟨⟨isName, sound⟩, parts, written, whole⟩
    -- The first part is the root behind the point that is left out.
    obtain ⟨part, rest, first, behind, rfl⟩ := List.forall₂_cons_left_iff.1 written
    cases first
    obtain ⟨_, whole⟩ := List.cons.inj whole
    exact ⟨isName, rest.flatten, whole, areSpelledBy_iff.2 ⟨sound, rest, behind, rfl⟩⟩

theorem Step.isWritten_text (step : Step) : step.IsWritten step.text.toList := by
  cases step with
  | field name =>
    have written := IsWritten.field name
    rwa [Step.text, String.toList_append]
  | index position =>
    have written := IsWritten.index 0 position
    simpa [Step.text, Number.toList_natText] using written

/-- The text of a path is its elements written out. -/
theorem areWritten_text (path : Path) : AreWritten path.elements path.text := by
  refine ⟨path.elements.map fun step => step.text.toList, ?_, ?_⟩
  · rw [List.forall₂_map_right_iff, List.forall₂_same]
    intro step _
    exact step.isWritten_text
  · have steps : ∀ steps : List Step, (String.join (steps.map Step.text)).toList =
        (steps.map fun step => step.text.toList).flatten := by
      intro steps
      induction steps with
      | nil => rfl
      | cons step steps ih =>
        rw [List.map_cons, String.join_cons, String.toList_append, ih, List.map_cons,
          List.flatten_cons]
    rw [text, String.toList_append, steps, elements, List.map_cons, List.flatten_cons, Step.text,
      String.toList_append]
    rfl

/-- Elements that can be those of a path are those of one. -/
theorem AreLegal.exists_path {elements : List Step} (legal : AreLegal elements) :
    ∃ path : Path, path.elements = elements := by
  obtain ⟨name, steps, rfl⟩ := legal.first
  exact ⟨⟨name, steps⟩, rfl⟩

/-! ### Leading zeros -/

/-- Characters **without leading zeros** behind opening brackets; `opened` says whether a bracket
or another leading zero stands right before them. -/
def unpadded (opened : Bool) : List Char → List Char
  | [] => []
  | [c] => [c]
  | c :: d :: cs =>
    if opened && c = '0' && d.isDigit then unpadded true (d :: cs)
    else c :: unpadded (c = '[') (d :: cs)

/-- A character stays that is no leading zero. -/
theorem unpadded_cons {opened : Bool} {c : Char} {cs : List Char}
    (stays : opened = true → c = '0' → ∀ d rest, cs = d :: rest → d.isDigit = false) :
    unpadded opened (c :: cs) = c :: unpadded (c = '[') cs := by
  cases cs with
  | nil => simp [unpadded]
  | cons d rest =>
    have noZero : (opened && c = '0' && d.isDigit) = false := by
      by_cases zero : opened = true ∧ c = '0'
      · simp [stays zero.1 zero.2 d rest rfl]
      · simpa using fun opened zero' => absurd ⟨opened, zero'⟩ zero
    rw [unpadded, if_neg (by simp [noZero])]

/-- Characters without brackets stay as they are. -/
theorem unpadded_append {before cs : List Char} (plain : '[' ∉ before) :
    unpadded false (before ++ cs) = before ++ unpadded false cs := by
  induction before with
  | nil => rfl
  | cons c before ih =>
    rw [List.mem_cons, not_or] at plain
    have other : decide (c = '[') = false := by simpa using Ne.symm plain.1
    rw [List.cons_append, unpadded_cons (by simp), other, ih plain.2, List.cons_append]

/-- Leading zeros are dropped in front of a numeral, which stays. -/
theorem unpadded_numeral (zeros position : Nat) (cs : List Char) :
    unpadded true (List.replicate zeros '0' ++ Number.digitsOf position ++ ']' :: cs) =
      Number.digitsOf position ++ ']' :: unpadded false cs := by
  induction zeros with
  | zero =>
    obtain ⟨first, digits, numeral⟩ :=
      List.exists_cons_of_ne_nil (Number.digitsOf_ne_nil position)
    have digital : ∀ c ∈ first :: digits, c.isDigit = true := by
      intro c mem
      exact Number.isDigit_of_mem_digitsOf (numeral ▸ mem)
    have plain : '[' ∉ digits ++ [']'] := by
      intro mem
      rcases List.mem_append.1 mem with mem | mem
      · exact Bool.false_ne_true (digital '[' (List.mem_cons_of_mem first mem))
      · simp at mem
    have notBracket : decide (first = '[') = false := by
      refine decide_eq_false ?_
      rintro rfl
      exact Bool.false_ne_true (digital '[' List.mem_cons_self)
    have stays : true = true → first = '0' → ∀ d rest,
        digits ++ ']' :: cs = d :: rest → d.isDigit = false := by
      rintro - rfl d rest behind
      cases digits with
      | nil =>
        obtain ⟨rfl, _⟩ := List.cons.inj behind
        rfl
      | cons second digits =>
        exact absurd numeral (Number.digitsOf_ne_zero_cons position second digits)
    have whole : digits ++ ']' :: cs = digits ++ [']'] ++ cs := by simp
    rw [List.replicate_zero, List.nil_append, numeral, List.cons_append, unpadded_cons stays,
      notBracket, whole, unpadded_append plain]
    simp
  | succ zeros ih =>
    -- Behind the zero there is another one, or the numeral.
    obtain ⟨d, rest, digits⟩ := List.exists_cons_of_ne_nil
      (List.append_ne_nil_of_right_ne_nil (List.replicate zeros '0')
        (Number.digitsOf_ne_nil position))
    have digital : d.isDigit = true :=
      Number.isDigit_of_mem_zeros_append (digits ▸ List.mem_cons_self)
    rw [digits] at ih
    rw [List.replicate_succ, List.cons_append, digits]
    simpa [unpadded, digital] using ih

/-- What spells steps is, without leading zeros, their text. -/
theorem AreSpelledBy.unpadded_eq {steps : List Step} {cs : List Char}
    (spelled : AreSpelledBy steps cs) :
    unpadded false cs = (String.join (steps.map Step.text)).toList := by
  induction spelled with
  | nil => rfl
  | @field name steps cs isName _ ih =>
    have plain : '[' ∉ '.' :: name.toList := by simpa using isName.2.2.1
    rw [← List.cons_append, unpadded_append plain, ih, List.map_cons, String.join_cons, Step.text,
      String.toList_append, String.toList_append]
    rfl
  | @index position steps cs zeros _ _ ih =>
    rw [unpadded_cons (by simp), decide_eq_true rfl, unpadded_numeral, ih, List.map_cons,
      String.join_cons, Step.text]
    simp [Number.toList_natText]

/-- The text of a path that was parsed is what was parsed, **without leading zeros**. -/
theorem unpadded_of_parse {text : String} {path : Path} (parses : parse text = .ok path) :
    path.text.toList = unpadded false text.toList := by
  obtain ⟨isName, cs, whole, spelled⟩ := parse_eq_ok_iff.1 parses
  rw [whole, unpadded_append isName.2.2.1, spelled.unpadded_eq, Path.text, String.toList_append]

/-! ### Parsing -/

/-- A text that is no path is refused under its own name, and nothing is registered for it. -/
theorem refused_of_parse_eq_error {text : String} {defect : Defect}
    (refused : parse text = .error defect) (table : Placeholders) :
    (Compile.path text).runOn table = (.error (.malformed text (.path defect)), table) := by
  rw [Compile.path, refused]
  rfl

/-- **The parser accepts exactly its grammar and recovers the path.** A text is parsed as a path
with some elements exactly if the elements can be those of a path and the text is these written out,
indexes with any number of leading zeros. Any other text is refused as malformed under its own name.
A path that can be written is parsed from its text, and the text of a path that was parsed is what
was parsed without leading zeros. -/
theorem parse_exact (text : String) :
    (∀ elements, (∃ path : Path, parse text = .ok path ∧ path.elements = elements) ↔
      AreLegal elements ∧ AreWritten elements text) ∧
    ((∀ elements, AreLegal elements → ¬AreWritten elements text) →
      ∃ defect, parse text = .error defect ∧ ∀ table, (Compile.path text).runOn table =
        (.error (.malformed text (.path defect)), table)) ∧
    (∀ path : Path, AreLegal path.elements → parse path.text = .ok path) ∧
    (∀ path, parse text = .ok path → path.text.toList = unpadded false text.toList) := by
  refine ⟨fun elements => ⟨?_, ?_⟩, fun none => ?_, fun path legal => ?_,
    fun path parses => unpadded_of_parse parses⟩
  · rintro ⟨path, parses, rfl⟩
    exact isSpelledBy_iff.1 (parse_eq_ok_iff.1 parses)
  · rintro ⟨legal, written⟩
    obtain ⟨path, rfl⟩ := legal.exists_path
    exact ⟨path, parse_eq_ok_iff.2 (isSpelledBy_iff.2 ⟨legal, written⟩), rfl⟩
  · cases parses : parse text with
    | ok path =>
      obtain ⟨legal, written⟩ := isSpelledBy_iff.1 (parse_eq_ok_iff.1 parses)
      exact absurd written (none path.elements legal)
    | error defect => exact ⟨defect, rfl, refused_of_parse_eq_error parses⟩
  · exact parse_eq_ok_iff.2 (isSpelledBy_iff.2 ⟨legal, areWritten_text path⟩)

/-- An index with leading zeros, one that is only a zero, and one that is not closed. -/
theorem parse_exact_padded :
    AreLegal [.field "tags", .index 7, .field "ö-1", .index 0] ∧
    AreWritten [.field "tags", .index 7, .field "ö-1", .index 0] "tags[007].ö-1[0]" ∧
    parse "tags[007].ö-1[0]" = .ok ⟨"tags", [.index 7, .field "ö-1", .index 0]⟩ ∧
    parse "tags[7].ö-1[0]" = .ok ⟨"tags", [.index 7, .field "ö-1", .index 0]⟩ ∧
    "tags[7].ö-1[0]".toList = unpadded false "tags[007].ö-1[0]".toList ∧
    ∃ defect, parse "tags[007" = .error defect ∧
      ∀ table, (Compile.path "tags[007").runOn table =
        (.error (.malformed "tags[007" (.path defect)), table) := by
  have parses : parse "tags[007].ö-1[0]" =
      .ok ⟨"tags", [.index 7, .field "ö-1", .index 0]⟩ := by decide +kernel
  obtain ⟨legal, written⟩ := ((parse_exact "tags[007].ö-1[0]").1 _).1 ⟨_, parses, rfl⟩
  have text : Path.text ⟨"tags", [.index 7, .field "ö-1", .index 0]⟩ = "tags[7].ö-1[0]" := by
    decide +kernel
  have shown := (parse_exact "").2.2.1 _ legal
  have stripped := (parse_exact "tags[007].ö-1[0]").2.2.2 _ parses
  rw [text] at shown stripped
  refine ⟨legal, written, parses, shown, stripped, (parse_exact "tags[007").2.1 ?_⟩
  intro elements legal' written'
  obtain ⟨path, parses', _⟩ := ((parse_exact "tags[007").1 elements).2 ⟨legal', written'⟩
  have refused : parse "tags[007" = .error .unterminated := by decide +kernel
  rw [refused] at parses'
  cases parses'

end Path

end ItemExpr
