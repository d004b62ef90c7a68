import Mathlib.Logic.Function.Basic
import Mathlib.Data.List.Basic
import Mathlib.Tactic.SplitIfs
import Mathlib.Algebra.GroupWithZero.Nat
import Mathlib.Algebra.Order.BigOperators.Group.Finset

/-!
# Interleaved processes over a shared store

A family of processes indexed by `ι` steps over one shared store. Each step belongs to one
process: it reads and replaces the store and the local state of that process, and emits a list
of events. A run records its events tagged with the process that emitted them.

Four rules cover the invariants of such a system:

* `Run.world_invariant`: what every step preserves of store and processes holds of every reachable
  world.
* `Run.shared_invariant`: what every step preserves of the store holds of every reachable store.
* `Run.local_invariant`: what the steps of one process preserve of its own events and local
  state holds in every run, whatever the other processes and the store do.
* `Run.owned_invariant`: a per-process invariant that also reads the store holds in every run,
  when the process's own steps preserve it and every other process's step leaves it stable.

`LockMove` says what a step may do to a lock, and `Run.lock_owner` that its owner is then the process
that holds it.

`Inevitably` is about what a system comes to. `inevitably_of_measure` and `inevitably_of_rank` are the
rules for it, and `inevitably_all` is the one for processes that each have a measure of their own.
`Run.simulated` carries the runs of one system over to another, and `Run.projected` to a part of it.
-/

namespace SimLn.Lib

universe u

/-- A family of processes over a shared store `σ`, with local states `ρ` and events `ε`. -/
structure System (ι σ ρ ε : Type u) where
  step : ι → σ → ρ → List ε → σ → ρ → Prop

/-- The shared store together with the local state of every process. -/
structure World (ι σ ρ : Type u) where
  shared : σ
  proc : ι → ρ

variable {ι σ ρ ε : Type u} [DecidableEq ι]

/-- The events that process `k` emitted, in order. -/
def eventsOf (k : ι) (trace : List (ι × ε)) : List ε :=
  trace.filterMap fun e => if e.1 = k then some e.2 else none

@[simp] theorem eventsOf_nil (k : ι) : eventsOf k ([] : List (ι × ε)) = [] := rfl

theorem eventsOf_cons (k : ι) (x : ι × ε) (trace : List (ι × ε)) :
    eventsOf k (x :: trace) = if x.1 = k then x.2 :: eventsOf k trace else eventsOf k trace := by
  simp only [eventsOf, List.filterMap_cons]
  split_ifs <;> rfl

@[simp] theorem eventsOf_append (k : ι) (s t : List (ι × ε)) :
    eventsOf k (s ++ t) = eventsOf k s ++ eventsOf k t := by
  simp [eventsOf]

@[simp] theorem eventsOf_map_self (k : ι) (es : List ε) :
    eventsOf k (es.map (Prod.mk k)) = es := by
  simp [eventsOf, List.filterMap_map]

theorem eventsOf_map_of_ne {k j : ι} (h : k ≠ j) (es : List ε) :
    eventsOf j (es.map (Prod.mk k)) = [] := by
  simp [eventsOf, List.filterMap_map, h]

theorem mem_eventsOf {k : ι} {trace : List (ι × ε)} {e : ε} :
    e ∈ eventsOf k trace ↔ (k, e) ∈ trace := by
  simp only [eventsOf, List.mem_filterMap]
  constructor
  · rintro ⟨⟨j, e'⟩, hmem, he⟩
    by_cases hj : j = k
    · simp only [hj, if_true, Option.some.injEq] at he
      rwa [hj, he] at hmem
    · simp [hj] at he
  · intro hmem
    exact ⟨(k, e), hmem, by simp⟩

/-- `M.Run w₀ trace w`: the processes of `M` take finitely many steps from `w₀` to `w`, in some
order, emitting `trace`. -/
inductive System.Run (M : System ι σ ρ ε) (w₀ : World ι σ ρ) :
    List (ι × ε) → World ι σ ρ → Prop where
  | refl : M.Run w₀ [] w₀
  | tail {trace : List (ι × ε)} {w : World ι σ ρ} {k : ι} {events : List ε} {shared : σ} {next : ρ}
      (hrun : M.Run w₀ trace w)
      (hstep : M.step k w.shared (w.proc k) events shared next) :
      M.Run w₀ (trace ++ events.map (Prod.mk k)) ⟨shared, Function.update w.proc k next⟩

variable {M : System ι σ ρ ε} {w₀ w : World ι σ ρ} {trace : List (ι × ε)}

/-- Runs compose. Induction on the second run. -/
theorem System.Run.trans {v : World ι σ ρ} {trace' : List (ι × ε)} (h : M.Run w₀ trace w)
    (h' : M.Run w trace' v) : M.Run w₀ (trace ++ trace') v := by
  induction h' with
  | refl => simpa using h
  | tail _ hstep ih =>
    rw [← List.append_assoc]
    exact ih.tail hstep

/-- A system that can do more has all the runs. -/
theorem System.Run.mono {M' : System ι σ ρ ε} (h : M.Run w₀ trace w)
    (himp : ∀ k s p es s' p', M.step k s p es s' p' → M'.step k s p es s' p') :
    M'.Run w₀ trace w := by
  induction h with
  | refl => exact .refl
  | tail _ hs ih => exact ih.tail (himp _ _ _ _ _ _ hs)

/-- What every step preserves of the store and the processes holds of every reachable world. -/
theorem System.Run.world_invariant {P : World ι σ ρ → Prop} (h : M.Run w₀ trace w) (h₀ : P w₀)
    (hstep : ∀ (w : World ι σ ρ) k es s' p', M.step k w.shared (w.proc k) es s' p' → P w →
      P ⟨s', Function.update w.proc k p'⟩) : P w := by
  induction h with
  | refl => exact h₀
  | tail _ hs ih => exact hstep _ _ _ _ _ hs ih

/-- What every step of every process preserves of the store holds of every reachable store. -/
theorem System.Run.shared_invariant {P : σ → Prop} (h : M.Run w₀ trace w) (h₀ : P w₀.shared)
    (hstep : ∀ k s p es s' p', M.step k s p es s' p' → P s → P s') : P w.shared := by
  induction h with
  | refl => exact h₀
  | tail _ hs ih => exact hstep _ _ _ _ _ _ hs ih

/-- As `shared_invariant`, with the fact `Q` that each step establishes about the events it emits
collected over the whole trace. -/
theorem System.Run.shared_events {P : σ → Prop} {Q : ι → ε → Prop} (h : M.Run w₀ trace w)
    (h₀ : P w₀.shared)
    (hstep : ∀ k s p es s' p', M.step k s p es s' p' → P s → P s' ∧ ∀ e ∈ es, Q k e) :
    P w.shared ∧ ∀ x ∈ trace, Q x.1 x.2 := by
  induction h with
  | refl => exact ⟨h₀, by simp⟩
  | tail _ hs ih =>
    obtain ⟨hp, hq⟩ := hstep _ _ _ _ _ _ hs ih.1
    refine ⟨hp, fun x hx => ?_⟩
    rcases List.mem_append.mp hx with hx | hx
    · exact ih.2 x hx
    · obtain ⟨e, he, rfl⟩ := List.mem_map.mp hx
      exact hq e he

/-- An invariant of each process's own events and local state, preserved by its own steps, holds
in every run: the other processes touch neither. -/
theorem System.Run.local_invariant {I : ι → List ε → ρ → Prop} (h : M.Run w₀ trace w)
    (h₀ : ∀ k, I k [] (w₀.proc k))
    (hstep : ∀ k s p es s' p' past, M.step k s p es s' p' → I k past p → I k (past ++ es) p') :
    ∀ k, I k (eventsOf k trace) (w.proc k) := by
  induction h with
  | refl => exact h₀
  | @tail trace w k events _ _ _ hs ih =>
    intro j
    rw [eventsOf_append]
    by_cases hj : j = k
    · subst hj
      simp only [eventsOf_map_self, Function.update_self]
      exact hstep _ _ _ _ _ _ _ hs (ih j)
    · simp only [eventsOf_map_of_ne (Ne.symm hj), List.append_nil, Function.update_of_ne hj]
      exact ih j

/-- The rely rule. `I k` relates the store to the events and local state of process `k`. It holds
in every run when each process's own steps preserve it and it is stable under the steps of the
others. -/
theorem System.Run.owned_invariant {I : ι → σ → List ε → ρ → Prop} (h : M.Run w₀ trace w)
    (h₀ : ∀ k, I k w₀.shared [] (w₀.proc k))
    (hown : ∀ k s p es s' p' past, M.step k s p es s' p' → I k s past p → I k s' (past ++ es) p')
    (hstable : ∀ j k s p es s' p' past q, j ≠ k → M.step k s p es s' p' → I j s past q →
      I j s' past q) :
    ∀ k, I k w.shared (eventsOf k trace) (w.proc k) := by
  induction h with
  | refl => exact h₀
  | @tail trace w k events _ _ _ hs ih =>
    intro j
    rw [eventsOf_append]
    by_cases hj : j = k
    · subst hj
      simp only [eventsOf_map_self, Function.update_self]
      exact hown _ _ _ _ _ _ _ hs (ih j)
    · simp only [eventsOf_map_of_ne (Ne.symm hj), List.append_nil, Function.update_of_ne hj]
      exact hstable _ _ _ _ _ _ _ _ _ hj hs (ih j)

/-! ## Locks -/

/-- What a step of process `k` does to a lock and to whether `k` holds it: the lock is taken from free,
or given back by the process that held it, or left alone. -/
inductive LockMove (k : ι) (owner owner' : Option ι) (held held' : Bool) : Prop where
  | taken (hfree : owner = none) (howner : owner' = some k) (hheld : held' = true)
  | released (hheld : held = true) (hfree : owner' = none) (hgone : held' = false)
  | kept (hsame : owner' = owner) (hheld : held' = held)

/-- The owner of the lock is the process that holds it. -/
theorem System.Run.lock_owner (h : M.Run w₀ trace w) (owner : σ → Option ι) (held : ρ → Bool)
    (h₀ : ∀ k, owner w₀.shared = some k ↔ held (w₀.proc k) = true)
    (hstep : ∀ k s p es s' p', M.step k s p es s' p' →
      LockMove k (owner s) (owner s') (held p) (held p')) :
    ∀ k, owner w.shared = some k ↔ held (w.proc k) = true := by
  refine h.world_invariant (P := fun w => ∀ k, owner w.shared = some k ↔ held (w.proc k) = true) h₀
    fun w k es s' p' hs hinv j => ?_
  have hmove := hstep k _ _ _ _ _ hs
  by_cases hj : j = k
  · subst hj
    simp only [Function.update_self]
    cases hmove with
    | taken hfree howner hheld => simp only [howner, hheld]
    | released hheld hfree hgone => simp only [hfree, hgone, reduceCtorEq, Bool.false_eq_true]
    | kept hsame hheld => rw [hsame, hheld, hinv j]
  · simp only [Function.update_of_ne hj]
    rw [← hinv j]
    cases hmove with
    | taken hfree howner hheld =>
      simp only [howner, hfree, Option.some.injEq, reduceCtorEq, iff_false]
      exact Ne.symm hj
    | released hheld hfree hgone =>
      simp only [hfree, (hinv k).mpr hheld, Option.some.injEq, reduceCtorEq, false_iff]
      exact Ne.symm hj
    | kept hsame hheld => rw [hsame]

/-! ## What is inevitable -/

/-- Whichever steps are taken, the system comes to a world with `P`: it never stops before, and it does
not go on forever. -/
inductive System.Inevitably (M : System ι σ ρ ε) (P : World ι σ ρ → Prop) : World ι σ ρ → Prop where
  | now {w : World ι σ ρ} (h : P w) : M.Inevitably P w
  | later {w : World ι σ ρ} (hcan : ∃ k es s p, M.step k w.shared (w.proc k) es s p)
      (hall : ∀ k es s p, M.step k w.shared (w.proc k) es s p →
        M.Inevitably P ⟨s, Function.update w.proc k p⟩) : M.Inevitably P w

theorem System.Inevitably.mono {P Q : World ι σ ρ → Prop} (h : M.Inevitably P w)
    (himp : ∀ w, P w → Q w) : M.Inevitably Q w := by
  induction h with
  | now hP => exact .now (himp _ hP)
  | later hcan _ ih => exact .later hcan ih

/-- Where an invariant holds, the system is there or it can go on, and every step keeps the invariant
and decreases a measure. Induction on the measure. -/
theorem System.inevitably_of_measure {P I : World ι σ ρ → Prop} (measure : World ι σ ρ → ℕ)
    (hstep : ∀ w : World ι σ ρ, I w → P w ∨ (∃ k es s p, M.step k w.shared (w.proc k) es s p) ∧
      ∀ k es s p, M.step k w.shared (w.proc k) es s p →
        I ⟨s, Function.update w.proc k p⟩ ∧ measure ⟨s, Function.update w.proc k p⟩ < measure w)
    (h : I w) : M.Inevitably P w := by
  generalize hn : measure w = n
  induction n using Nat.strongRecOn generalizing w with
  | ind n ih =>
    rcases hstep w h with hP | ⟨hcan, hall⟩
    · exact .now hP
    · refine .later hcan fun k es s p hs => ?_
      obtain ⟨hI, hlt⟩ := hall k es s p hs
      exact ih _ (hn ▸ hlt) hI rfl

/-- As `inevitably_of_measure`, with a rank in a well-founded order. Induction on the rank. -/
theorem System.inevitably_of_rank {α : Type*} {r : α → α → Prop} (hwf : WellFounded r)
    {P I : World ι σ ρ → Prop} (rank : World ι σ ρ → α)
    (hstep : ∀ w : World ι σ ρ, I w → P w ∨ (∃ k es s p, M.step k w.shared (w.proc k) es s p) ∧
      ∀ k es s p, M.step k w.shared (w.proc k) es s p →
        I ⟨s, Function.update w.proc k p⟩ ∧ r (rank ⟨s, Function.update w.proc k p⟩) (rank w))
    (h : I w) : M.Inevitably P w := by
  generalize hn : rank w = n
  induction n using hwf.induction generalizing w with
  | _ n ih =>
    rcases hstep w h with hP | ⟨hcan, hall⟩
    · exact .now hP
    · refine .later hcan fun k es s p hs => ?_
      obtain ⟨hI, hlt⟩ := hall k es s p hs
      exact ih _ (hn ▸ hlt) hI rfl

omit [DecidableEq ι] in
/-- A sum over some of the processes decreases with a summand, if no other one increases. -/
theorem sum_measure_lt_of_mem (measure : ι → ρ → ℕ) {proc proc' : ι → ρ} {S : Finset ι} {k : ι}
    (hk : k ∈ S) (hlt : measure k (proc' k) < measure k (proc k)) (hsame : ∀ j, j ≠ k → proc' j = proc j) :
    ∑ j ∈ S, measure j (proc' j) < ∑ j ∈ S, measure j (proc j) := by
  refine Finset.sum_lt_sum (fun j _ => ?_) ⟨k, hk, hlt⟩
  by_cases hj : j = k
  · rw [hj]
    exact hlt.le
  · rw [hsame j hj]

omit [DecidableEq ι] in
theorem sum_measure_lt [Fintype ι] (measure : ι → ρ → ℕ) {proc proc' : ι → ρ} {k : ι}
    (hlt : measure k (proc' k) < measure k (proc k)) (hsame : ∀ j, j ≠ k → proc' j = proc j) :
    ∑ j, measure j (proc' j) < ∑ j, measure j (proc j) :=
  sum_measure_lt_of_mem measure (Finset.mem_univ k) hlt hsame

/-- Finitely many processes all come to their end, in whatever order they take their steps, if each
step decreases a measure of its own process and none stops before its end. -/
theorem System.inevitably_all [Fintype ι] (I : World ι σ ρ → Prop) (Done : ι → ρ → Prop)
    (measure : ι → ρ → ℕ)
    (hcan : ∀ (w : World ι σ ρ) k, I w → Done k (w.proc k) ∨
      ∃ es s p, M.step k w.shared (w.proc k) es s p)
    (hstep : ∀ (w : World ι σ ρ) k es s p, I w → M.step k w.shared (w.proc k) es s p →
      I ⟨s, Function.update w.proc k p⟩ ∧ measure k p < measure k (w.proc k)) (h : I w) :
    M.Inevitably (fun w => I w ∧ ∀ k, Done k (w.proc k)) w := by
  refine System.inevitably_of_measure (fun w => ∑ k, measure k (w.proc k)) (fun w hw => ?_) h
  by_cases hdone : ∀ k, Done k (w.proc k)
  · exact .inl ⟨hw, hdone⟩
  · obtain ⟨j, hj⟩ := not_forall.mp hdone
    refine .inr ⟨⟨j, (hcan w j hw).resolve_left hj⟩, fun k es s p hs => ?_⟩
    obtain ⟨hI, hlt⟩ := hstep w k es s p hw hs
    refine ⟨hI, sum_measure_lt measure (k := k) ?_ fun i hi => Function.update_of_ne hi _ _⟩
    show measure k (Function.update w.proc k p k) < measure k (w.proc k)
    rw [Function.update_self]
    exact hlt

/-! ## Simulation -/

/-- Process `k` takes finitely many steps while the others stay where they are. -/
inductive System.Alone (M : System ι σ ρ ε) (k : ι) (s : σ) (p : ρ) : List ε → σ → ρ → Prop where
  | refl : M.Alone k s p [] s p
  | tail {events events' : List ε} {s' s'' : σ} {p' p'' : ρ} (halone : M.Alone k s p events s' p')
      (hstep : M.step k s' p' events' s'' p'') : M.Alone k s p (events ++ events') s'' p''

omit [DecidableEq ι] in
theorem System.Alone.single {k : ι} {s s' : σ} {p p' : ρ} {events : List ε}
    (hstep : M.step k s p events s' p') : M.Alone k s p events s' p' :=
  .tail .refl hstep

omit [DecidableEq ι] in
/-- A step can also be put in front. -/
theorem System.Alone.head {k : ι} {s s' s'' : σ} {p p' p'' : ρ} {events events' : List ε}
    (hstep : M.step k s p events s' p') (h : M.Alone k s' p' events' s'' p'') :
    M.Alone k s p (events ++ events') s'' p'' := by
  induction h with
  | refl =>
    rw [List.append_nil]
    exact .single hstep
  | tail _ hs ih =>
    rw [← List.append_assoc]
    exact ih.tail hs

theorem System.Run.alone {k : ι} {s : σ} {p : ρ} {events : List ε} (h : M.Run w₀ trace w)
    (halone : M.Alone k w.shared (w.proc k) events s p) :
    M.Run w₀ (trace ++ events.map (Prod.mk k)) ⟨s, Function.update w.proc k p⟩ := by
  induction halone with
  | refl =>
    rw [Function.update_eq_self, List.map_nil, List.append_nil]
    exact h
  | @tail _ _ _ _ p' _ _ hstep ih =>
    have hp' : Function.update w.proc k p' k = p' := Function.update_self _ _ _
    have hrun := ih.tail (k := k) (hp'.symm ▸ hstep)
    rw [List.map_append, ← List.append_assoc]
    rwa [Function.update_idem] at hrun

/-- The events that `obs` lets through, tagged with their processes. -/
def observed {o : Type u} (obs : ι → ε → Option o) (trace : List (ι × ε)) : List (ι × o) :=
  trace.filterMap fun x => (obs x.1 x.2).map (Prod.mk x.1)

omit [DecidableEq ι] in
theorem observed_append {o : Type u} (obs : ι → ε → Option o) (trace trace' : List (ι × ε)) :
    observed obs (trace ++ trace') = observed obs trace ++ observed obs trace' :=
  List.filterMap_append

omit [DecidableEq ι] in
theorem observed_map {o : Type u} (obs : ι → ε → Option o) (k : ι) (es : List ε) :
    observed obs (es.map (Prod.mk k)) = (es.filterMap (obs k)).map (Prod.mk k) := by
  rw [observed, List.filterMap_map, List.map_filterMap]
  rfl

/-- The rule for simulation. If the processes of two systems over one store are related, and what a
process does in one step the related process can do to the same effect on its own, then every run
of the first system has a run of the second with the same store and observations. -/
theorem System.Run.simulated {ρ' ε' o : Type u} (h : M.Run w₀ trace w) (M' : System ι σ ρ' ε')
    (R : ι → ρ → ρ' → Prop) (obs : ι → ε → Option o) (obs' : ι → ε' → Option o) (w₀' : World ι σ ρ')
    (hshared : w₀'.shared = w₀.shared) (h₀ : ∀ k, R k (w₀.proc k) (w₀'.proc k))
    (hstep : ∀ k s p es s' p' q, M.step k s p es s' p' → R k p q → ∃ es' q',
      M'.Alone k s q es' s' q' ∧ R k p' q' ∧ es'.filterMap (obs' k) = es.filterMap (obs k)) :
    ∃ trace' w', M'.Run w₀' trace' w' ∧ w'.shared = w.shared ∧
      (∀ k, R k (w.proc k) (w'.proc k)) ∧ observed obs' trace' = observed obs trace := by
  induction h with
  | refl => exact ⟨[], w₀', .refl, hshared, h₀, rfl⟩
  | @tail trace w k es s p _ hs ih =>
    obtain ⟨trace', w', hrun', hshared', hR, hobs⟩ := ih
    obtain ⟨es', q', halone, hRk, hobs'⟩ := hstep k _ _ _ _ _ (w'.proc k) hs (hR k)
    rw [← hshared'] at halone
    refine ⟨_, _, hrun'.alone halone, rfl, fun j => ?_, ?_⟩
    · show R j (Function.update w.proc k p j) (Function.update w'.proc k q' j)
      by_cases hj : j = k
      · rw [hj, Function.update_self, Function.update_self]
        exact hRk
      · rw [Function.update_of_ne hj, Function.update_of_ne hj]
        exact hR j
    · rw [observed_append, observed_append, hobs, observed_map, observed_map, hobs']

/-- The rule for projection. A part of the store and of each local state is a system of its own, if each
step is one of that system or leaves the part alone. `Q` is what is known of the end of the run, and
of every world on the way to it. -/
theorem System.Run.projected {σ' ρ' ε' : Type u} (h : M.Run w₀ trace w) (M' : System ι σ' ρ' ε')
    (store : σ → σ') (part : ι → ρ → ρ') (obs : ι → ε → Option ε') (Q : World ι σ ρ → Prop)
    (hQ : Q w)
    (hback : ∀ (w : World ι σ ρ) k es s p, M.step k w.shared (w.proc k) es s p →
      Q ⟨s, Function.update w.proc k p⟩ → Q w)
    (hstep : ∀ (w : World ι σ ρ) k es s p, M.step k w.shared (w.proc k) es s p →
      Q ⟨s, Function.update w.proc k p⟩ →
      M'.step k (store w.shared) (part k (w.proc k)) (es.filterMap (obs k)) (store s) (part k p) ∨
        store s = store w.shared ∧ part k p = part k (w.proc k) ∧ es.filterMap (obs k) = []) :
    M'.Run ⟨store w₀.shared, fun k => part k (w₀.proc k)⟩ (observed obs trace)
      ⟨store w.shared, fun k => part k (w.proc k)⟩ := by
  induction h with
  | refl => exact .refl
  | @tail trace w k es s p _ hs ih =>
    have hrun := ih (hback _ _ _ _ _ hs hQ)
    have hproc : (fun j => part j (Function.update w.proc k p j))
        = Function.update (fun j => part j (w.proc j)) k (part k p) :=
      funext fun j => Function.apply_update part w.proc k p j
    show M'.Run _ _ ⟨store s, fun j => part j (Function.update w.proc k p j)⟩
    rw [observed_append, observed_map, hproc]
    rcases hstep _ _ _ _ _ hs hQ with hs' | ⟨hstore, hpart, hquiet⟩
    · exact hrun.tail hs'
    · rw [hstore, hpart, hquiet, Function.update_eq_self, List.map_nil, List.append_nil]
      exact hrun

end SimLn.Lib
