import ItemExpr.Proofs.Expression.Marked
import ItemExpr.Proofs.Projection.Reading

/-! # The tokens of projections

A projection that leaves out texts that it has already written still shows the mentions of all its
paths: a path that is left out has the text, and so the tokens, of one that is kept
(`Projection.shows_text`). -/

namespace ItemExpr.Projection

/-- What is collected are the texts of paths. -/
theorem exists_kept (before paths : List Path) :
    ∃ kept : List Path, collect (before.map Path.text) (paths.map Path.text) =
      kept.map Path.text ∧ ∀ path ∈ kept, path ∈ before ∨ path ∈ paths := by
  induction paths generalizing before with
  | nil => exact ⟨before, rfl, fun path mem => Or.inl mem⟩
  | cons first paths ih =>
    rw [List.map_cons, collect]
    -- A text that is known already adds nothing.
    by_cases known : first.text ∈ before.map Path.text
    · rw [if_pos known]
      obtain ⟨kept, same, subset⟩ := ih before
      refine ⟨kept, same, fun path mem => ?_⟩
      exact (subset path mem).imp_right (List.mem_cons_of_mem first)
    · rw [if_neg known]
      obtain ⟨kept, same, subset⟩ := ih (before ++ [first])
      rw [List.map_append, List.map_singleton] at same
      refine ⟨kept, same, fun path mem => ?_⟩
      rcases subset path mem with mem | mem
      · rcases List.mem_append.1 mem with mem | mem
        · exact Or.inl mem
        · rw [List.mem_singleton.1 mem]
          exact Or.inr List.mem_cons_self
      · exact Or.inr (List.mem_cons_of_mem first mem)

/-- Two paths of one text have the same mentions. -/
theorem mem_mentions_of_text_eq {path path' : Path} {mention : Mention String}
    (legible : ∀ mention ∈ (path.mentions : List (Mention String)), mention.Legible)
    (legible' : ∀ mention ∈ (path'.mentions : List (Mention String)), mention.Legible)
    (same : path.text = path'.text) :
    mention ∈ (path.mentions : List (Mention String)) ↔ mention ∈ path'.mentions := by
  have lexed := (Path.lexes_text legible).lex_eq
  rw [same, (Path.lexes_text legible').lex_eq] at lexed
  rw [← Path.token_mem_tokens, ← Path.token_mem_tokens, Option.some.inj lexed]

/-- The text of a projection lexes to the tokens of the paths that are kept. -/
theorem lexes_text {paths : List Path}
    (legible : ∀ mention ∈ (paths.flatMap Path.mentions : List (Mention String)),
      mention.Legible) :
    ∃ kept : List Path, collect [] (paths.map Path.text) = kept.map Path.text ∧
      (∀ path ∈ kept, path ∈ paths) ∧
      Lexes (", ".intercalate (collect [] (paths.map Path.text)))
        ([Token.comma].intercalate (kept.map Path.tokens)) := by
  obtain ⟨kept, texts, subset⟩ : ∃ kept : List Path,
      collect [] (paths.map Path.text) = kept.map Path.text ∧
        ∀ path ∈ kept, path ∈ [] ∨ path ∈ paths :=
    exists_kept [] paths
  have known : ∀ path ∈ kept, path ∈ paths := fun path mem =>
    (subset path mem).resolve_left List.not_mem_nil
  refine ⟨kept, texts, known, ?_⟩
  rw [texts]
  refine separates_comma.intercalate fun path mem => Path.lexes_text ?_
  exact List.forall_mem_flatMap.1 legible path (known path mem)

/-- A projection in placeholders shows the mentions of all its paths. -/
theorem shows_text {paths : List Path}
    (legible : ∀ mention ∈ (paths.flatMap Path.mentions : List (Mention String)),
      mention.Legible) :
    Shows (", ".intercalate (collect [] (paths.map Path.text)))
      (paths.flatMap Path.mentions) := by
  have each := List.forall_mem_flatMap.1 legible
  obtain ⟨kept, texts, known, lexes⟩ := lexes_text legible
  refine lexes.shows fun mention => ?_
  rw [mem_intercalate mention.token_notMem_comma, List.mem_flatMap]
  simp only [List.mem_map, exists_exists_and_eq_and, Path.token_mem_tokens]
  constructor
  · rintro ⟨path, mem, mem'⟩
    exact ⟨path, known path mem, mem'⟩
  · rintro ⟨path, mem, mem'⟩
    -- A path that was left out has the text of one that was kept.
    have collected : path.text ∈ collect [] (paths.map Path.text) :=
      mem_collect.2 (Or.inr (List.mem_map_of_mem mem))
    obtain ⟨path', kept', same⟩ : ∃ path' ∈ kept, path'.text = path.text := by
      rw [texts] at collected
      exact List.mem_map.1 collected
    exact ⟨path', kept', (mem_mentions_of_text_eq (each path' (known path' kept'))
      (each path mem) same).2 mem'⟩

end ItemExpr.Projection
