import SimLn.Scheduler.Clocked

/-!
# SimLn — where events come from

`Drawn` follows the events of a run back to the executors that drew them: the setup draws an event
for each executor, and a round draws the next one of the source whose event it has popped.
-/

namespace SimLn

open Lib

variable {γ : Type} {kits : List (ExecutorKit γ)} {p p' : Producer γ} {events log : List Activity}

/-- The trackers are those of the executors, and each event queued has been drawn by one of them. -/
structure Drawn (kits : List (ExecutorKit γ)) (p : Producer γ) : Prop where
  trackers : ∀ source tracker, p.paymentsTracker.lookup source = some tracker →
    tracker.executor ∈ kits ∧ tracker.executor.source = source
  queued : ∀ e ∈ p.heap.toList, ∃ kit ∈ kits, kit.source = e.source ∧ kit.Pays e.destination e.amount

theorem Drawn.generatePayment {pubkey : PublicKey} {base : SystemTime} {delay : Duration}
    (h : Drawn kits p) (hgenerate : p.generatePayment pubkey base = .ok (delay, p')) :
    Drawn kits p' := by
  obtain ⟨tracker, destination, amount, g, htracker, -, hpays, -, rfl⟩ :=
    Producer.generatePayment_ok hgenerate
  obtain ⟨hkit, hsource⟩ := h.trackers pubkey tracker htracker
  refine ⟨h.trackers, fun e he => ?_⟩
  rcases MinHeap.mem_push.mp he with rfl | he
  · exact ⟨tracker.executor, hkit, hsource, hpays⟩
  · exact h.queued e he

theorem Drawn.insert {ex : ExecutorKit γ} {source : PublicKey} (h : Drawn kits p) (hex : ex ∈ kits)
    (hsource : ex.source = source) (completed : Nat) :
    Drawn kits { p with paymentsTracker := p.paymentsTracker.insert source ⟨ex, completed⟩ } := by
  refine ⟨fun other tracker hl => ?_, h.queued⟩
  rcases Table.lookup_insert_cases hl with ⟨rfl, rfl⟩ | ⟨-, hl⟩
  · exact ⟨hex, hsource⟩
  · exact h.trackers other tracker hl

theorem Drawn.pop {event : PaymentEvent} {rest : EventHeap} (h : Drawn kits p)
    (hpop : p.heap.pop = some (event, rest)) : Drawn kits (p.withHeap rest) := by
  refine ⟨h.trackers, fun e he => h.queued e ?_⟩
  rw [MinHeap.toList_of_pop hpop]
  exact List.mem_cons_of_mem _ he

theorem Drawn.round (h : Drawn kits p) (hround : UntimedRound p events p') : Drawn kits p' := by
  cases hround with
  | stopped hpop => exact h.pop hpop
  | skipped hpop _ _ _ hgenerate => exact (h.pop hpop).generatePayment hgenerate
  | @dispatched event rest tracker base time delay q hpop htracker _ _ hgenerate =>
    obtain ⟨hkit, hsource⟩ := h.trackers event.source tracker htracker
    have hcomplete : Drawn kits ((p.withHeap rest).complete event.source tracker) :=
      (h.pop hpop).insert hkit hsource _
    exact hcomplete.generatePayment hgenerate

/-- Induction on the executors that are left. -/
theorem Drawn.setupExecutors {start : SystemTime} {left : List (ExecutorKit γ)} (h : Drawn kits p)
    (hleft : ∀ ex ∈ left, ex ∈ kits) (hsetup : setupExecutors start left p = .ok (log, p')) :
    Drawn kits p' := by
  induction left generalizing p log with
  | nil =>
    cases hsetup
    exact h
  | cons ex rest ih =>
    rw [SimLn.setupExecutors] at hsetup
    split at hsetup
    · cases hsetup
    next delay q hgenerate =>
      split at hsetup
      · cases hsetup
      next log' q' hrest =>
        cases hsetup
        have hinsert := h.insert (hleft ex (by simp)) rfl 0
        exact ih (hinsert.generatePayment hgenerate) (fun ex' hex' => hleft ex' (by simp [hex']))
          hrest

theorem drawn_run {start : SystemTime} {g : γ} {log₀ : List Activity} {clock : Clock}
    {nodes : Table PublicKey NodeInfo} {s : LoopState γ}
    (hsetup : setupPaymentEvents kits start g = .ok (log₀, p))
    (hrun : ClockedRun clock nodes ⟨p, start⟩ log s) : Drawn kits s.producer := by
  have hempty : Drawn kits { heap := .empty, paymentsTracker := ∅, generators := g } := by
    refine ⟨fun source tracker hl => ?_, by simp⟩
    rw [AList.lookup_empty] at hl
    cases hl
  have hstart := hempty.setupExecutors
    (fun ex hex => (List.perm_insertionSort _ kits).mem_iff.mp hex) hsetup
  obtain ⟨rounds, hsteps, -⟩ := hrun
  exact hsteps.invariant (I := fun _ s => Drawn kits s.producer) hstart
    fun _ _ _ _ h hround => h.round hround.untimed

end SimLn
