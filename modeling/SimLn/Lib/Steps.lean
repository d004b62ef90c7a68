import Mathlib.Data.List.Basic

/-!
# Runs of a step relation

A system is given by its labelled steps. `Steps` is its finite runs, `Steps.invariant` the rule for
what every step preserves of the labels so far and the state. A run whose steps all meet a condition
is a run of the steps that meet it, and a measure that some steps decrease bounds how many of them a
run has. Two runs whose steps show the same from related states go on in lockstep. What no choice of
steps can avoid is `Inevitably` reached.
-/

namespace SimLn.Lib

universe u v

variable {σ : Type u} {ε : Type v}

/-- Finitely many steps, with the labels of `trace`, lead from `s₀` to a state. -/
inductive Steps (step : σ → ε → σ → Prop) (s₀ : σ) : List ε → σ → Prop where
  | refl : Steps step s₀ [] s₀
  | tail {trace : List ε} {s s' : σ} {label : ε} (hrun : Steps step s₀ trace s)
      (hstep : step s label s') : Steps step s₀ (trace ++ [label]) s'

namespace Steps

variable {step : σ → ε → σ → Prop} {s₀ s : σ} {trace : List ε}

/-- What every step preserves of the trace and the state holds after every run. -/
theorem invariant {I : List ε → σ → Prop} (h : Steps step s₀ trace s) (h₀ : I [] s₀)
    (hstep : ∀ trace s label s', I trace s → step s label s' → I (trace ++ [label]) s') :
    I trace s := by
  induction h with
  | refl => exact h₀
  | tail _ hs ih => exact hstep _ _ _ _ ih hs

/-- A condition that every step of the run meets can be added to the steps. -/
theorem and_of_forall {P : ε → Prop} (h : Steps step s₀ trace s) (hP : ∀ label ∈ trace, P label) :
    Steps (fun s label s' => step s label s' ∧ P label) s₀ trace s := by
  induction h with
  | refl => exact .refl
  | tail _ hs ih =>
    refine (ih fun label hlabel => hP label (by simp [hlabel])).tail ⟨hs, hP _ (by simp)⟩

/-- If the steps that `P` selects decrease a measure and no other step increases it, a run has no more
of them than the measure of its first state. -/
theorem countP_le (P : ε → Bool) (measure : σ → ℕ) {I : σ → Prop} (h : Steps step s₀ trace s)
    (h₀ : I s₀) (hstep : ∀ s label s', I s → step s label s' →
      I s' ∧ measure s' + (if P label then 1 else 0) ≤ measure s) :
    I s ∧ trace.countP P + measure s ≤ measure s₀ := by
  refine h.invariant (I := fun trace s => I s ∧ trace.countP P + measure s ≤ measure s₀) ?_ ?_
  · exact ⟨h₀, by simp⟩
  · rintro trace s label s' ⟨hI, hle⟩ hs
    obtain ⟨hI', hlt⟩ := hstep s label s' hI hs
    refine ⟨hI', ?_⟩
    rw [List.countP_append, List.countP_singleton]
    omega

/-- A step can also be put in front of a run. -/
theorem head {s₁ : σ} {label : ε} (hstep : step s₀ label s₁) (h : Steps step s₁ trace s) :
    Steps step s₀ (label :: trace) s := by
  induction h with
  | refl => exact Steps.refl.tail hstep
  | tail _ hs ih => exact ih.tail hs

/-- A run is empty, or it has a first step. -/
theorem cases_head (h : Steps step s₀ trace s) :
    (trace = [] ∧ s = s₀) ∨
      ∃ label rest s₁, trace = label :: rest ∧ step s₀ label s₁ ∧ Steps step s₁ rest s := by
  induction h with
  | refl => exact .inl ⟨rfl, rfl⟩
  | @tail trace s s' label _ hs ih =>
    rcases ih with ⟨rfl, rfl⟩ | ⟨first, rest, s₁, rfl, hfirst, hrest⟩
    · exact .inr ⟨label, [], s', rfl, hs, .refl⟩
    · exact .inr ⟨first, rest ++ [label], s₁, rfl, hfirst, hrest.tail hs⟩

/-- The rule for two runs in lockstep. If steps from related states show the same and lead to related
states, what the one run shows is the beginning of what the other one shows. Induction on the first
run, from its head. -/
theorem lockstep {τ : Type*} {ε' o : Type*} {step' : τ → ε' → τ → Prop} {R : σ → τ → Prop}
    (f : ε → o) (g : ε' → o) {t₀ t : τ} {trace' : List ε'}
    (hstep : ∀ s t label s' label' t', R s t → step s label s' → step' t label' t' →
      f label = g label' ∧ R s' t')
    (h : Steps step s₀ trace s) (h' : Steps step' t₀ trace' t) (h₀ : R s₀ t₀) :
    trace.map f <+: trace'.map g ∨ trace'.map g <+: trace.map f := by
  induction trace generalizing s₀ t₀ trace' with
  | nil => exact .inl List.nil_prefix
  | cons label rest ih =>
    rcases h'.cases_head with ⟨rfl, -⟩ | ⟨label', rest', t₁, rfl, hs', hrest'⟩
    · exact .inr List.nil_prefix
    · rcases h.cases_head with ⟨hnil, -⟩ | ⟨_, _, s₁, heq, hs, hrest⟩
      · cases hnil
      · cases heq
        obtain ⟨hshown, hnext⟩ := hstep _ _ _ _ _ _ h₀ hs hs'
        simp only [List.map_cons, hshown, List.cons_prefix_cons, true_and]
        exact ih hrest hrest' hnext

end Steps

/-- Whichever steps are taken, the system comes to a state with `P`: it never stops before, and it does
not go on forever. -/
inductive Inevitably (step : σ → ε → σ → Prop) (P : σ → Prop) : σ → Prop where
  | now {s : σ} (h : P s) : Inevitably step P s
  | later {s : σ} (hcan : ∃ label s', step s label s')
      (hall : ∀ label s', step s label s' → Inevitably step P s') : Inevitably step P s

/-- Where an invariant holds, the system is there or it can go on, and every step keeps the invariant
and decreases a rank. Induction on the rank. -/
theorem Inevitably.of_rank {step : σ → ε → σ → Prop} {α : Type*} {r : α → α → Prop}
    (hwf : WellFounded r) {P I : σ → Prop} (rank : σ → α)
    (hstep : ∀ s, I s → P s ∨ (∃ label s', step s label s') ∧
      ∀ label s', step s label s' → I s' ∧ r (rank s') (rank s)) {s : σ} (h : I s) :
    Inevitably step P s := by
  generalize hn : rank s = n
  induction n using hwf.induction generalizing s with
  | _ n ih =>
    rcases hstep s h with hP | ⟨hcan, hall⟩
    · exact .now hP
    · refine .later hcan fun label s' hs => ?_
      obtain ⟨hI, hlt⟩ := hall label s' hs
      exact ih _ (hn ▸ hlt) hI rfl

end SimLn.Lib
