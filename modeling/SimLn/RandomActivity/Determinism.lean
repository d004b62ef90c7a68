import SimLn.Pipeline.Producer
import SimLn.RandomActivity.Order

/-!
# SimLn — a fixed seed fixes random activity

On a clock that advances by exactly the durations slept, the payments that are dispatched depend on
the seed, the configuration and the nodes only: not on the order in which the maps of nodes are
iterated over, and not on what becomes of the payments.
-/

namespace SimLn

open Lib

section Simulations

variable {γ : Type} {clock : Clock} {csv csv' : Csv} {nodes : Table PublicKey NodeInfo}
  {p : Producer γ} {now : SystemTime} {writeResults writeResults' : Option UInt32}
  {timeout timeout' : Bool} {trace trace' : List TaskEvent} {s s' : Simulation γ}

/-- Two simulations dispatch one sequence of payments, of which each has seen a part. A producer
that returns without the signal has dispatched all of it. -/
structure SameDispatches (s s' : Simulation γ) : Prop where
  comparable : s.dispatched <+: s'.dispatched ∨ s'.dispatched <+: s.dispatched
  complete : s.producer = .returned → s.shutdown = false → s'.dispatched <+: s.dispatched
  complete' : s'.producer = .returned → s'.shutdown = false → s.dispatched <+: s'.dispatched

theorem FollowsLoop.comparable {start : LoopState γ} (h : FollowsLoop .exact nodes start s)
    (h' : FollowsLoop .exact nodes start s') :
    s.dispatched <+: s'.dispatched ∨ s'.dispatched <+: s.dispatched := by
  obtain ⟨log, r, hrun, hdispatched, -⟩ := h
  obtain ⟨log', r', hrun', hdispatched', -⟩ := h'
  rw [← hdispatched, ← hdispatched']
  -- the exact clock leaves the loop one way to go, so one log continues the other
  rcases hrun.loopRun.linear hrun'.loopRun with ⟨rest, -, rfl⟩ | ⟨rest, -, rfl⟩
  · refine Or.inl ?_
    rw [dispatches_append]
    exact List.prefix_append _ _
  · refine Or.inr ?_
    rw [dispatches_append]
    exact List.prefix_append _ _

theorem FollowsLoop.complete {start : LoopState γ} (h : FollowsLoop .exact nodes start s)
    (h' : FollowsLoop .exact nodes start s') (hphase : s.producer = .returned)
    (hsignal : s.shutdown = false) : s'.dispatched <+: s.dispatched := by
  obtain ⟨log, r, hrun, hdispatched, hin⟩ := h
  obtain ⟨log', r', hrun', hdispatched', -⟩ := h'
  rw [InLoop, hphase, hsignal] at hin
  -- without the signal the producer has returned because the loop has
  obtain ⟨result, hreturned⟩ := returned_of_clockedReturn (hin.resolve_left (by simp))
  obtain ⟨rest, rfl⟩ := hrun.loopRun.of_returned hreturned hrun'.loopRun
  rw [← hdispatched, ← hdispatched', dispatches_append]
  exact List.prefix_append _ _

/-- On the exact clock the producer that was set up determines what is dispatched, whatever happens
to the payments. -/
theorem sameDispatches_of_runs
    (h : SimulationRun .exact csv nodes (.start p now writeResults timeout) trace s)
    (h' : SimulationRun .exact csv' nodes (.start p now writeResults' timeout') trace' s') :
    SameDispatches s s' where
  comparable := (run_followsLoop h).comparable (run_followsLoop h')
  complete := (run_followsLoop h).complete (run_followsLoop h')
  complete' := (run_followsLoop h').complete (run_followsLoop h)

/-- On any clock the order of the queued events is total in every state. -/
theorem FollowsLoop.single {start : LoopState γ} (h : FollowsLoop clock nodes start s)
    (hstart : start.producer.Single) {q : Producer γ} (hq : s.producer.producer = some q) :
    q.Single := by
  obtain ⟨log, r, hrun, -, hin⟩ := h
  have hsingle := hrun.single hstart
  unfold InLoop at hin
  cases hphase : s.producer with
  | looping p | polled p =>
    rw [hphase] at hin hq
    cases hq
    subst hin
    exact hsingle
  -- its event has been popped, and the next one of that source is not queued yet
  | sleeping event wait p | waking event wait p =>
    rw [hphase] at hin hq
    cases hq
    exact hsingle.sleeping hin.2
  | returned | finished =>
    rw [hphase] at hq
    cases hq

end Simulations

/-- With a fixed seed, the order of the maps of nodes changes neither the producer that is set up
nor, on the exact clock, what any run of the simulation dispatches and when. -/
theorem seeded_dispatches {F σ : Type} (f : Float64 F) (rand : Rand F σ)
    (cfg : RandomActivityCfg F) (attempts : Nat) (seed random random' : UInt64)
    (randomOf randomOf' : PublicKey → UInt64) (nodes : Table PublicKey NodeInfo)
    (now : SystemTime) {reports reports' : List NodeReport}
    {values values' : List (NodeInfo × UInt64) → List (NodeInfo × UInt64)}
    {kits : List (ExecutorKit (RandomState σ))} {log : List Activity}
    {p : Producer (RandomState σ)} (hdistinct : DistinctNodes reports)
    (hreports : reports.Perm reports') (hvalues : ∀ l, (values l).Perm l)
    (hvalues' : ∀ l, (values' l).Perm l)
    (hkits : randomActivityNodes f rand cfg attempts reports values = .ok kits)
    (hsetup : setupPaymentEvents kits now (.new rand (some seed) random randomOf) = .ok (log, p)) :
    ∃ kits', randomActivityNodes f rand cfg attempts reports' values' = .ok kits' ∧
      setupPaymentEvents kits' now (.new rand (some seed) random' randomOf') = .ok (log, p) ∧
      ∀ csv csv' writeResults writeResults' timeout timeout' trace trace' s s',
        SimulationRun .exact csv nodes (.start p now writeResults timeout) trace s →
        SimulationRun .exact csv' nodes (.start p now writeResults' timeout') trace' s' →
        SameDispatches s s' ∧ ∀ q, s.producer.producer = some q → q.Single := by
  obtain ⟨hsources, kits', hkits', hperm⟩ :=
    randomActivityNodes_perm hdistinct hreports hvalues hvalues' hkits
  -- with a seed, nothing else is drawn to create the generators
  have hgenerators : RandomState.new rand (some seed) random' randomOf'
      = RandomState.new rand (some seed) random randomOf := rfl
  refine ⟨kits', hkits', ?_, ?_⟩
  · rw [← setupPaymentEvents_perm hsources hperm, hgenerators, hsetup]
  · intro csv csv' writeResults writeResults' timeout timeout' trace trace' s s' hrun hrun'
    refine ⟨sameDispatches_of_runs hrun hrun', fun q hq => ?_⟩
    exact (run_followsLoop hrun).single (single_setupPaymentEvents hsources hsetup) hq

theorem seeded_dispatches_twoNodes : ∃ kits log p kits',
    seededKits = .ok kits ∧ setupPaymentEvents kits 0 seededGenerators = .ok (log, p) ∧
    randomActivityNodes seededFloats seededRand ⟨3800000, 2⟩ 10 seededReports.reverse List.reverse
      = .ok kits' ∧
    setupPaymentEvents kits' 0 (.new seededRand (some 2332) 7 fun _ => 7) = .ok (log, p) ∧
    ∀ csv csv' writeResults writeResults' timeout timeout' trace trace' s s',
      SimulationRun .exact csv seededNodes (.start p 0 writeResults timeout) trace s →
      SimulationRun .exact csv' seededNodes (.start p 0 writeResults' timeout') trace' s' →
      SameDispatches s s' ∧ ∀ q, s.producer.producer = some q → q.Single := by
  obtain ⟨kits, log, p, hkits, hsetup, -⟩ := exists_seededSetup
  obtain ⟨kits', hkits', hsetup', hruns⟩ :=
    seeded_dispatches seededFloats seededRand ⟨3800000, 2⟩ 10 2332 0 7 (fun _ => 0) (fun _ => 7)
      seededNodes 0
      seededReports_distinct seededReports.reverse_perm.symm (fun _ => .refl _)
      (fun l => l.reverse_perm) hkits hsetup
  exact ⟨kits, log, p, kits', hkits, hsetup, hkits', hsetup', hruns⟩

end SimLn
