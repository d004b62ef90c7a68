import Mathlib.Data.List.Basic

/-!
# Loops that keep a log

The body of a loop either goes on with a new state, after adding some entries to a log, or returns
a result. `Loop.Run` is the finite runs of a loop, `Loop.Run.invariant` the rule for what every
round preserves, and `Loop.Run.exists_stop` the rule for progress: a measure that every round
decreases until the loop reaches its goal or returns. A loop goes one way only, so that of two runs
from one state one continues the other (`Loop.Run.linear`). `Loop.iterate` computes its first rounds.
-/

namespace SimLn.Lib

universe u v w

/-- What one round of a loop comes to. -/
inductive Iteration (ε : Type u) (σ : Type v) (ρ : Type w) where
  | next (log : List ε) (s : σ)
  | returned (result : ρ)

/-- A loop, given by its body. -/
abbrev Loop (ε : Type u) (σ : Type v) (ρ : Type w) := σ → Iteration ε σ ρ

variable {ε : Type u} {σ : Type v} {ρ : Type w}

/-- The loop gets from `s₀` to a state in finitely many rounds, adding `log`. -/
inductive Loop.Run (body : Loop ε σ ρ) (s₀ : σ) : List ε → σ → Prop where
  | start : body.Run s₀ [] s₀
  | round {log events : List ε} {s s' : σ} (hrun : body.Run s₀ log s)
      (hnext : body s = .next events s') : body.Run s₀ (log ++ events) s'

variable {body : Loop ε σ ρ} {s₀ s : σ} {log : List ε}

/-- What every round preserves of the log and the state holds after every run. -/
theorem Loop.Run.invariant {I : List ε → σ → Prop} (h : body.Run s₀ log s) (h₀ : I [] s₀)
    (hround : ∀ log s events s', I log s → body s = .next events s' → I (log ++ events) s') :
    I log s := by
  induction h with
  | start => exact h₀
  | round _ hnext ih => exact hround _ _ _ _ ih hnext

/-- A run that goes past its first state has taken its round. -/
theorem Loop.Run.cases_head (h : body.Run s₀ log s) :
    (log = [] ∧ s = s₀) ∨
      ∃ events s₁ rest, body s₀ = .next events s₁ ∧ body.Run s₁ rest s ∧ log = events ++ rest := by
  induction h with
  | start => exact .inl ⟨rfl, rfl⟩
  | @round log events s s' hrun hnext ih =>
    rcases ih with ⟨rfl, rfl⟩ | ⟨first, s₁, rest, hfirst, hrest, rfl⟩
    · exact .inr ⟨events, s', [], hnext, .start, by simp⟩
    · exact .inr ⟨first, s₁, rest ++ events, hfirst, hrest.round hnext, by simp⟩

/-- A round can also be put in front of a run. -/
theorem Loop.Run.head {s₁ : σ} {events : List ε} (hnext : body s₀ = .next events s₁)
    (h : body.Run s₁ log s) : body.Run s₀ (events ++ log) s := by
  induction h with
  | start => simpa using Loop.Run.start.round hnext
  | round _ hlater ih =>
    rw [← List.append_assoc]
    exact ih.round hlater

/-- The first rounds of a loop, unless it returns in them. -/
def Loop.iterate (body : Loop ε σ ρ) : (rounds : Nat) → σ → Option (List ε × σ)
  | 0, s => some ([], s)
  | rounds + 1, s =>
    match body s with
    | .returned _ => none
    | .next events s => (Loop.iterate body rounds s).map fun run => (events ++ run.1, run.2)

theorem Loop.run_of_iterate {rounds : Nat} (h : body.iterate rounds s₀ = some (log, s)) :
    body.Run s₀ log s := by
  induction rounds generalizing s₀ log with
  | zero =>
    cases h
    exact .start
  | succ rounds ih =>
    unfold Loop.iterate at h
    cases hbody : body s₀ with
    | returned result =>
      rw [hbody] at h
      cases h
    | next events s₁ =>
      rw [hbody] at h
      obtain ⟨⟨rest, s'⟩, hrest, heq⟩ := Option.map_eq_some_iff.mp h
      cases heq
      exact (ih hrest).head hbody

/-- A loop goes one way only: of two runs from one state, one goes on where the other ends. -/
theorem Loop.Run.linear {s' : σ} {log' : List ε} (h : body.Run s₀ log s)
    (h' : body.Run s₀ log' s') :
    (∃ rest, body.Run s rest s' ∧ log' = log ++ rest) ∨
      ∃ rest, body.Run s' rest s ∧ log = log' ++ rest := by
  induction h with
  | start => exact .inl ⟨log', h', rfl⟩
  | @round log events s s₂ hrun hnext ih =>
    rcases ih with ⟨rest, hrest, rfl⟩ | ⟨rest, hrest, rfl⟩
    · rcases hrest.cases_head with ⟨rfl, rfl⟩ | ⟨first, s₁, others, hfirst, hothers, rfl⟩
      · exact .inr ⟨[] ++ events, Loop.Run.start.round hnext, by simp⟩
      · rw [hnext] at hfirst
        cases hfirst
        exact .inl ⟨others, hothers, by simp⟩
    · exact .inr ⟨rest ++ events, hrest.round hnext, by simp⟩

/-- A run ends where the loop returns. -/
theorem Loop.Run.of_returned {s' : σ} {log' : List ε} {result : ρ} (h : body.Run s₀ log s)
    (hreturned : body s = .returned result) (h' : body.Run s₀ log' s') : log' <+: log := by
  rcases h.linear h' with ⟨rest, hrest, rfl⟩ | ⟨rest, -, rfl⟩
  · rcases hrest.cases_head with ⟨rfl, rfl⟩ | ⟨events, s₁, others, hnext, -, -⟩
    · simp
    · rw [hreturned] at hnext
      cases hnext
  · exact List.prefix_append log' rest

/-- If every round taken short of the goal decreases a measure, the loop reaches its goal or
returns. Strong induction on the measure of the state that the run has come to. -/
theorem Loop.Run.exists_stop {Goal : σ → Prop} (measure : σ → ℕ)
    (hdecr : ∀ log s events s', body.Run s₀ log s → ¬Goal s → body s = .next events s' →
      measure s' < measure s)
    (h : body.Run s₀ log s) :
    ∃ log' s', body.Run s₀ log' s' ∧ (Goal s' ∨ ∃ r, body s' = .returned r) := by
  induction hm : measure s using Nat.strongRecOn generalizing log s with
  | ind m ih =>
    by_cases hgoal : Goal s
    · exact ⟨log, s, h, .inl hgoal⟩
    · cases hbody : body s with
      | returned r => exact ⟨log, s, h, .inr ⟨r, hbody⟩⟩
      | next events s' =>
        have hlt : measure s' < m := hm ▸ hdecr _ _ _ _ h hgoal hbody
        exact ih (measure s') hlt (h.round hbody) rfl

end SimLn.Lib
