import ItemExpr.Proofs.Compile.Phrase
import Mathlib.Data.List.TakeWhile

/-! # The roots of paths

A check that is only about top-level attributes cuts the text of a path at its first point or
opening bracket (`Path.rootText`). If the text is a path, that is its root (`Path.root_of_parse`).
The path is its root alone exactly if neither character is in the text
(`Path.steps_of_parse_eq_nil_iff`), and then the text is the name of the root
(`Path.eq_of_parse_of_steps_eq_nil`). -/

namespace ItemExpr.Path

open Compile

/-! ### Segments -/

/-- The first piece of a text between points ends at its first point, and it is the only one if
there is none. -/
theorem splitOn_point_eq_cons {cs first : List Char} {rest : List (List Char)}
    (split : cs.splitOn '.' = first :: rest) :
    first = cs.takeWhile (· ≠ '.') ∧ (rest = [] ↔ '.' ∉ cs) := by
  induction cs generalizing first rest with
  | nil =>
    rw [List.splitOn, List.splitOnP_nil] at split
    cases split
    simp
  | cons c cs ih =>
    rw [List.splitOn, List.splitOnP_cons_eq_if_modifyHead] at split
    by_cases point : c = '.'
    · subst point
      rw [if_pos (beq_self_eq_true _)] at split
      cases split
      simp [List.splitOnP_ne_nil]
    · rw [if_neg (by simpa using point)] at split
      obtain ⟨head, tail, pieces⟩ := List.exists_cons_of_ne_nil (List.splitOn_ne_nil '.' cs)
      obtain ⟨before, alone⟩ := ih pieces
      rw [List.splitOn] at pieces
      rw [pieces, List.modifyHead_cons] at split
      cases split
      rw [List.takeWhile_cons_of_pos (by simpa using point), ← before, alone]
      simp [Ne.symm point]

/-- Inside brackets there is an index. -/
theorem indexes_some_ne_nil {inside cs : List Char} {positions : List Nat}
    (reads : indexes (some inside) cs = .ok positions) : positions ≠ [] := by
  induction cs generalizing inside with
  | nil => cases reads
  | cons c cs ih =>
    rw [indexes] at reads
    split at reads
    · obtain ⟨first, others, _, _, rfl⟩ := cons_eq_ok_iff.1 reads
      exact List.cons_ne_nil first others
    · exact ih reads

/-- There are no indexes exactly if there are no characters. -/
theorem indexes_none_eq_nil_iff {cs : List Char} {positions : List Nat}
    (reads : indexes none cs = .ok positions) : positions = [] ↔ cs = [] := by
  cases cs with
  | nil =>
    cases reads
    simp
  | cons c cs =>
    rw [indexes] at reads
    split at reads
    · exact iff_of_false (indexes_some_ne_nil reads) (List.cons_ne_nil c cs)
    · cases reads

/-- A segment begins with its name, and is its name alone exactly if it has no opening bracket. -/
theorem segment_eq_ok {cs : List Char} {name : String} {positions : List Nat}
    (reads : segment cs = .ok (name, positions)) :
    name = String.ofList (cs.takeWhile (· ≠ '[')) ∧ (positions = [] ↔ '[' ∉ cs) := by
  rw [segment] at reads
  split at reads
  · cases reads
  · split at reads
    · cases reads
    · obtain ⟨positions', indexed, same⟩ := bind_eq_ok_iff.1 reads
      cases same
      refine ⟨rfl, ?_⟩
      rw [indexes_none_eq_nil_iff indexed, List.dropWhile_eq_nil_iff]
      constructor
      · intro plain mem
        simpa using plain '[' mem
      · intro absent c mem
        simpa using fun same : c = '[' => absent (same ▸ mem)

/-- Every segment behind the first one has a field. -/
theorem segments_eq_nil_iff {pieces : List (List Char)} {steps : List Step}
    (reads : segments pieces = .ok steps) : steps = [] ↔ pieces = [] := by
  cases pieces with
  | nil =>
    cases reads
    simp
  | cons piece pieces =>
    obtain ⟨⟨name, positions⟩, _, reads⟩ := bind_eq_ok_iff.1 reads
    obtain ⟨others, _, same⟩ := bind_eq_ok_iff.1 reads
    cases same
    simp

/-! ### Paths -/

variable {text : String} {path : Path}

/-- The first segment of a path and the pieces behind it. -/
theorem pieces_of_parse (parses : parse text = .ok path) :
    ∃ first rest positions steps, text.toList.splitOn '.' = first :: rest ∧
      segment first = .ok (path.root, positions) ∧ segments rest = .ok steps ∧
      path.steps = positions.map .index ++ steps := by
  rw [parse] at parses
  split at parses
  · cases parses
  · split at parses
    · cases parses
    · next first rest pieces =>
      obtain ⟨⟨root, positions⟩, reads, parses⟩ := bind_eq_ok_iff.1 parses
      obtain ⟨steps, reads', same⟩ := bind_eq_ok_iff.1 parses
      cases same
      exact ⟨first, rest, positions, steps, pieces, reads, reads', rfl⟩

/-- **The root of a path is what stands before the first point or opening bracket** of its text. -/
theorem root_of_parse (parses : parse text = .ok path) : path.root = rootText text := by
  obtain ⟨first, rest, positions, steps, pieces, reads, _, _⟩ := pieces_of_parse parses
  rw [(segment_eq_ok reads).1, (splitOn_point_eq_cons pieces).1, List.takeWhile_takeWhile, rootText]
  congr 1
  refine congrArg (List.takeWhile · text.toList) (funext fun c => ?_)
  by_cases point : c = '.' <;> by_cases bracket : c = '[' <;> simp [point, bracket]

/-- A path is its root alone exactly if its text has neither a point nor an opening bracket. -/
theorem steps_of_parse_eq_nil_iff (parses : parse text = .ok path) :
    path.steps = [] ↔ '.' ∉ text.toList ∧ '[' ∉ text.toList := by
  obtain ⟨first, rest, positions, steps, pieces, reads, reads', behind⟩ := pieces_of_parse parses
  obtain ⟨before, alone⟩ := splitOn_point_eq_cons pieces
  rw [behind, List.append_eq_nil_iff, List.map_eq_nil_iff, (segment_eq_ok reads).2,
    segments_eq_nil_iff reads', alone, and_comm]
  refine and_congr_right fun absent => ?_
  -- Without a point, the first piece is the whole text.
  have whole : first = text.toList := by
    rw [before, List.takeWhile_eq_self_iff]
    intro c mem
    simpa using fun same : c = '.' => absent (same ▸ mem)
  rw [whole]

/-- A path that is its root alone is the attribute that its text names. -/
theorem eq_of_parse_of_steps_eq_nil (parses : parse text = .ok path) (alone : path.steps = []) :
    path = ⟨text, []⟩ := by
  obtain ⟨noPoint, noBracket⟩ := (steps_of_parse_eq_nil_iff parses).1 alone
  have whole : rootText text = text := by
    rw [rootText, List.takeWhile_eq_self_iff.2, String.ofList_toList]
    intro c mem
    have notPoint : c ≠ '.' := fun same => noPoint (same ▸ mem)
    have notBracket : c ≠ '[' := fun same => noBracket (same ▸ mem)
    simp [notPoint, notBracket]
  obtain ⟨root, steps⟩ := path
  have root_eq := root_of_parse parses
  rw [whole] at root_eq
  exact congrArg₂ Path.mk root_eq alone

end ItemExpr.Path
