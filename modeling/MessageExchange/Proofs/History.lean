/-!
# Histories

A *history* is a list of calls to something that has a state.  A step takes the
state and a call and gives the answer of the call and the next state.  `run`
makes the calls in order and collects the answers, one for each call.

The answer of a call is fixed by the state that the calls before it lead to
(`answers_eq_mapIdx`).  Two machines that take the same calls are compared by a
relation between their states: if steps from related states give equal answers
and related states, histories do (`run_simulation`).
-/

namespace MessageExchange.History

variable {σ τ γ α : Type}

/-- The answers of the calls of a history and the state after it. -/
def run (step : σ → γ → α × σ) (s : σ) : List γ → List α × σ
  | [] => ([], s)
  | call :: calls =>
      ((step s call).1 :: (run step (step s call).2 calls).1, (run step (step s call).2 calls).2)

theorem run_append (step : σ → γ → α × σ) (s : σ) (before after : List γ) :
    run step s (before ++ after) =
      ((run step s before).1 ++ (run step (run step s before).2 after).1,
        (run step (run step s before).2 after).2) := by
  induction before generalizing s with
  | nil => rfl
  | cons call calls ih => simp only [List.cons_append, run, ih]

/-- The last call of a history is made in the state that the others lead to. -/
@[simp] theorem run_concat_state (step : σ → γ → α × σ) (s : σ) (calls : List γ) (call : γ) :
    (run step s (calls ++ [call])).2 = (step (run step s calls).2 call).2 := by
  rw [run_append]
  rfl

theorem run_concat_answers (step : σ → γ → α × σ) (s : σ) (calls : List γ) (call : γ) :
    (run step s (calls ++ [call])).1 =
      (run step s calls).1 ++ [(step (run step s calls).2 call).1] := by
  rw [run_append]
  rfl

/-- The answer of a call is what the step gives in the state that the calls before it lead to. -/
theorem answers_eq_mapIdx (step : σ → γ → α × σ) (s : σ) (calls : List γ) :
    (run step s calls).1 =
      calls.mapIdx fun i call => (step (run step s (calls.take i)).2 call).1 := by
  induction calls generalizing s with
  | nil => rfl
  | cons call calls ih =>
      rw [List.mapIdx_cons, run, ih]
      rfl

theorem run_simulation {step : σ → γ → α × σ} {step' : τ → γ → α × τ} {related : σ → τ → Prop}
    (hstep : ∀ s t call, related s t →
      (step s call).1 = (step' t call).1 ∧ related (step s call).2 (step' t call).2)
    {s : σ} {t : τ} (hst : related s t) (calls : List γ) :
    (run step s calls).1 = (run step' t calls).1 ∧
      related (run step s calls).2 (run step' t calls).2 := by
  induction calls generalizing s t with
  | nil => exact ⟨rfl, hst⟩
  | cons call calls ih =>
      obtain ⟨hanswer, hnext⟩ := hstep s t call hst
      obtain ⟨hanswers, hlast⟩ := ih hnext
      refine ⟨?_, hlast⟩
      simp only [run, hanswer, hanswers]

end MessageExchange.History
