import ItemExpr.Proofs.Condition.Reading
import ItemExpr.Request.Clauses

/-! # What projections say

`Projection.read` gives the paths that a projection says. The compiler of projections registers the
names of all of them, in order, and writes each of their texts once (`Projection.runOn_compile`). A
text that is left out has its names registered all the same, but these stand in the text before
it. -/

namespace ItemExpr.Projection

open Compile

/-- The **paths that a projection says**, in order. -/
def read : List String → Except CompileError (List Path)
  | [] => return []
  | text :: texts => do
    let path ← Path.read text
    let paths ← read texts
    return path :: paths

/-- Some texts, and behind them those further texts that are not there yet, each once. -/
def collect (before : List String) : List String → List String
  | [] => before
  | text :: texts => collect (if text ∈ before then before else before ++ [text]) texts

/-- What is collected is what was there and what comes. -/
theorem mem_collect {before texts : List String} {text : String} :
    text ∈ collect before texts ↔ text ∈ before ∨ text ∈ texts := by
  induction texts generalizing before with
  | nil => simp [collect]
  | cons first texts ih =>
    rw [collect, ih, List.mem_cons]
    by_cases known : first ∈ before
    · rw [if_pos known]
      constructor
      · rintro (mem | mem)
        · exact Or.inl mem
        · exact Or.inr (Or.inr mem)
      · rintro (mem | rfl | mem)
        · exact Or.inl mem
        · exact Or.inl known
        · exact Or.inr mem
    · rw [if_neg known, List.mem_append, List.mem_singleton, or_assoc]

/-- The phrase of some paths: their texts, each once, behind those that are there. -/
def phrase (before : List String) (paths : List Path) : Phrase (List String) where
  registrations := paths.flatMap Path.mentions
  write f := collect before (paths.map fun path => (path.spell f).text)
  write_congr agree := by
    refine congrArg (collect before) (List.map_congr_left fun path mem => ?_)
    rw [Path.spell_congr fun registration mem' =>
      agree registration (List.mem_flatMap.2 ⟨path, mem, mem'⟩)]

/-- The phrase of some paths behind another one, which waits for the text of that. -/
def phraseBehind (before : List String) (paths : List Path) : Phrase (String → List String) where
  registrations := paths.flatMap Path.mentions
  write f first := (phrase (if first ∈ before then before else before ++ [first]) paths).write f
  write_congr agree := funext fun _ => Phrase.write_congr _ agree

/-- Paths write their spellings, each once. -/
theorem compilePaths_denotes (texts before : List String) :
    (compilePaths before texts).Denotes fun _ => (read texts).map (phrase before) := by
  induction texts generalizing before with
  | nil => exact Denotes.pure before
  | cons text texts ih =>
    -- Whether a text is left out depends on its spelling, but what is registered does not.
    have next : ∀ first, (compilePaths (if first ∈ before then before else before ++ [first])
        texts).Denotes fun _ => do
          let behind ← (read texts).map (phraseBehind before)
          return behind.map fun write : String → List String => write first := by
      intro first
      refine (ih _).congr fun settings => ?_
      cases read texts <;> rfl
    refine ((Compile.path_denotes text).bind next).congr fun settings => ?_
    rw [read]
    cases Path.read text with
    | error refusal => rfl
    | ok path => cases read texts <;> rfl

/-- A projection comes out as the paths that it says, each once. -/
theorem runOn_compile (texts : List String) (table : Placeholders) :
    (compile texts).runOn table =
      clauseOutcome .projection (fun texts => ", ".intercalate texts) table
        ((read texts).map (phrase [])) :=
  (compilePaths_denotes texts []).runOn_clause .projection (fun texts => ", ".intercalate texts)
    table

end ItemExpr.Projection
