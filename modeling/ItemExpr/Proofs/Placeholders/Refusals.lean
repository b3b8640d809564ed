import ItemExpr.Proofs.Placeholders.Run

/-! # Refusals in a run

A task can be refused after it has added any number of names and values, and even for the length of
a text that is complete. Whatever the reason, the table is then the one before the task
(`step_of_refused`), counters and all. So the refused tasks of a run may as well be left out: the
others are answered as they were, and the run ends in the same table
(`refusals_leave_no_trace`). -/

namespace ItemExpr.Placeholders

/-- What a run **answers**, task by task: placeholders and texts, or a refusal. -/
def answers (table : Placeholders) : List Task → List (Except CompileError (List String))
  | [] => []
  | task :: tasks => (task.compile.runOn table).1 :: (table.step task).answers tasks

/-- The tasks of a run that are **accepted**: all of them but those that are refused. -/
def accepted (table : Placeholders) (tasks : List Task) : List Task :=
  ((tasks.zip (table.answers tasks)).filter fun entry => entry.2.isOk).map Prod.fst

variable {table : Placeholders} {task : Task} {tasks : List Task}

/-- A refused task leaves the table as it was. -/
theorem step_of_refused {refusal : CompileError}
    (refused : (task.compile.runOn table).1 = .error refusal) : table.step task = table := by
  rcases task.runOn_cases table with ⟨phrase, _, ran⟩ | ⟨refusal', ran⟩
  · rw [ran] at refused
    cases refused
  · rw [step, ran]

/-- A task that is refused first of all is not among those that are accepted. -/
theorem accepted_cons_of_refused {refusal : CompileError}
    (refused : (task.compile.runOn table).1 = .error refusal) :
    table.accepted (task :: tasks) = table.accepted tasks := by
  rw [accepted, answers, step_of_refused refused, refused, List.zip_cons_cons,
    List.filter_cons_of_neg (by simp [Except.isOk, Except.toBool])]
  rfl

/-- A task that is accepted first of all is the first one that is. -/
theorem accepted_cons_of_ok {answer : List String}
    (answered : (task.compile.runOn table).1 = .ok answer) :
    table.accepted (task :: tasks) = task :: (table.step task).accepted tasks := by
  rw [accepted, answers, answered, List.zip_cons_cons, List.filter_cons_of_pos rfl,
    List.map_cons]
  rfl

/-- **Refused tasks leave no trace.** On any table, the tasks of a run that are accepted make the
same run without the others: it ends in the same table, and its answers are those that were no
refusals, in order. -/
theorem refusals_leave_no_trace (table : Placeholders) (tasks : List Task) :
    table.run (table.accepted tasks) = table.run tasks ∧
      table.answers (table.accepted tasks) = (table.answers tasks).filter Except.isOk := by
  induction tasks generalizing table with
  | nil => exact ⟨rfl, rfl⟩
  | cons task tasks ih =>
    cases outcome : (task.compile.runOn table).1 with
    | error refusal =>
      -- The tasks behind it start from the same table as it did.
      have same := step_of_refused outcome
      obtain ⟨ran, answered⟩ := ih table
      rw [accepted_cons_of_refused outcome, run_cons, same, answers, outcome, same,
        List.filter_cons_of_neg (by simp [Except.isOk, Except.toBool])]
      exact ⟨ran, answered⟩
    | ok answer =>
      obtain ⟨ran, answered⟩ := ih (table.step task)
      rw [accepted_cons_of_ok outcome, run_cons, run_cons, answers, answers, outcome,
        List.filter_cons_of_pos rfl, answered]
      exact ⟨ran, rfl⟩

/-- Six reasons for a refusal, most of them found after names and values were added. The last task
is given the numbers that it would have been given without them. -/
example :
    ((empty { maxBytes := 20 }).answers
      [.name "first name",
        .condition .condition (.group .and [.not (.exists "my city" false),
          .not (.group .or [.exists "a" false, .group .and []])]),
        .condition .filter (.compare (.path "my city") .eq (.path "a.b[")),
        .condition .filter (.among (.path "my city") []),
        .update [("my city", .set (.value (.boolean true))), ("n", .add (.value (.null true)))],
        .update [("my city", .remove), ("n", .remove), ("my city", .remove)],
        .projection ["my city", "my street", "my house", "my door", "my bell"],
        .entry "last name" (.boolean false)]).map Except.toOption =
      [some ["#n1"], none, none, none, none, none, none, some ["#n2", ":v1"]] := by
  decide +kernel

end ItemExpr.Placeholders
