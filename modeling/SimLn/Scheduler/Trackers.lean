import SimLn.Scheduler.Round
import Mathlib.Algebra.Order.BigOperators.Group.List

/-!
# SimLn — what the trackers count

Facts about the scheduler that hold for any list of executors, also when several share a source:

* `Tracked`: the tracker of a source belongs to one of its executors and counts the payments
  dispatched from that source, of which there are never more than the executor's payment count;
* `remaining`: a measure that every round decreases, unless it skips a payment of amount zero.
-/

namespace SimLn

open Lib

variable {γ : Type}

/-! ## Reading a log -/

@[simp] theorem dispatches_nil : dispatches [] = [] := rfl

@[simp] theorem dispatches_append (log log' : List Activity) :
    dispatches (log ++ log') = dispatches log ++ dispatches log' := by
  simp [dispatches]

@[simp] theorem dispatches_scheduled (source : PublicKey) (delay : Duration)
    (log : List Activity) : dispatches (.scheduled source delay :: log) = dispatches log := rfl

@[simp] theorem dispatches_stopped (source : PublicKey) (log : List Activity) :
    dispatches (.stopped source :: log) = dispatches log := rfl

@[simp] theorem dispatches_dispatched (payment : Dispatch) (log : List Activity) :
    dispatches (.dispatched payment :: log) = payment :: dispatches log := rfl

/-- The payments of a list that come from one source. -/
def fromSource (source : PublicKey) (payments : List Dispatch) : List Dispatch :=
  payments.filter (·.event.source = source)

/-- The payments of a source are those dispatched from it. -/
theorem dispatchesOf_eq (source : PublicKey) (log : List Activity) :
    dispatchesOf source log = fromSource source (dispatches log) := rfl

@[simp] theorem fromSource_nil (source : PublicKey) : fromSource source [] = [] := rfl

/-- One more payment of the source. -/
theorem fromSource_append_self {source : PublicKey} {payments : List Dispatch} {d : Dispatch}
    (h : d.event.source = source) :
    fromSource source (payments ++ [d]) = fromSource source payments ++ [d] := by
  simp [fromSource, h]

/-- A payment of another source is none of this one's. -/
theorem fromSource_append_of_ne {source : PublicKey} {payments : List Dispatch} {d : Dispatch}
    (h : d.event.source ≠ source) :
    fromSource source (payments ++ [d]) = fromSource source payments := by
  simp [fromSource, h]

/-! ## The trackers -/

/-- The trackers of `p` agree with the payments dispatched so far, and every queued event has
one. -/
structure Tracked (executors : List (ExecutorKit γ)) (payments : List Dispatch) (p : Producer γ) :
    Prop where
  known : ∀ {source tracker}, p.paymentsTracker.lookup source = some tracker →
    tracker.executor ∈ executors ∧ tracker.executor.source = source
  counted : ∀ {source tracker}, p.paymentsTracker.lookup source = some tracker →
    tracker.paymentsCompleted = (fromSource source payments).length
  capped : ∀ {source tracker c}, p.paymentsTracker.lookup source = some tracker →
    tracker.executor.count = some c → (fromSource source payments).length ≤ c
  queued : ∀ e ∈ p.heap.toList, e.source ∈ p.paymentsTracker
  dispatched : ∀ d ∈ payments, d.event.source ∈ p.paymentsTracker

namespace Tracked

variable {executors : List (ExecutorKit γ)} {payments : List Dispatch} {p p' : Producer γ}

/-- Every payment comes from the source of an executor, which is tracked. -/
theorem payer (h : Tracked executors payments p) {d : Dispatch} (hd : d ∈ payments) :
    ∃ tracker, p.paymentsTracker.lookup d.event.source = some tracker ∧
      tracker.executor ∈ executors ∧ tracker.executor.source = d.event.source := by
  obtain ⟨tracker, hlookup⟩ := Option.isSome_iff_exists.mp
    (AList.lookup_isSome.mpr (h.dispatched d hd))
  exact ⟨tracker, hlookup, h.known hlookup⟩

/-- Fewer queued events are still tracked. -/
theorem heap_sub (h : Tracked executors payments p) {heap : EventHeap}
    (hsub : ∀ e ∈ heap.toList, e ∈ p.heap.toList) :
    Tracked executors payments (p.withHeap heap) :=
  { h with queued := fun e he => h.queued e (hsub e he) }

/-- Generating an event leaves the trackers alone. -/
theorem generatePayment {pubkey : PublicKey} {base : SystemTime} {delay : Duration}
    (h : Tracked executors payments p)
    (hgenerate : p.generatePayment pubkey base = .ok (delay, p')) :
    Tracked executors payments p' := by
  obtain ⟨tracker, destination, amount, g, htracker, -, -, -, rfl⟩ :=
    Producer.generatePayment_ok hgenerate
  refine { h with queued := fun e he => ?_ }
  rcases MinHeap.mem_push.mp he with rfl | he
  · exact AList.lookup_isSome.mp (by simp [htracker])
  · exact h.queued e he

/-- Completing a payment of a source below its count and dispatching it go together. -/
theorem complete {tracker : ExecutorPaymentTracker γ} {d : Dispatch}
    (h : Tracked executors payments p)
    (htracker : p.paymentsTracker.lookup d.event.source = some tracker)
    (hunmet : tracker.executor.count ≠ some tracker.paymentsCompleted) :
    Tracked executors (payments ++ [d]) (p.complete d.event.source tracker) := by
  have hcount := h.counted htracker
  constructor
  · intro source tracker' hlookup
    rcases Table.lookup_insert_cases hlookup with ⟨rfl, rfl⟩ | ⟨-, hlookup⟩
    · exact ⟨(h.known htracker).1, (h.known htracker).2⟩
    · exact h.known hlookup
  · intro source tracker' hlookup
    rcases Table.lookup_insert_cases hlookup with ⟨rfl, rfl⟩ | ⟨hs, hlookup⟩
    · simp [fromSource_append_self, hcount]
    · rw [fromSource_append_of_ne (Ne.symm hs)]
      exact h.counted hlookup
  · intro source tracker' c hlookup hc
    rcases Table.lookup_insert_cases hlookup with ⟨rfl, rfl⟩ | ⟨hs, hlookup⟩
    · -- one payment more than before, and the count had not been met
      have hle := h.capped htracker hc
      have hne : c ≠ tracker.paymentsCompleted := fun heq => hunmet (heq ▸ hc)
      rw [fromSource_append_self rfl, List.length_append, List.length_singleton]
      omega
    · rw [fromSource_append_of_ne (Ne.symm hs)]
      exact h.capped hlookup hc
  · intro e he
    exact (AList.mem_insert _).mpr (.inr (h.queued e he))
  · intro d' hd'
    rcases List.mem_append.mp hd' with hd' | hd'
    · exact (AList.mem_insert _).mpr (.inr (h.dispatched d' hd'))
    · rw [List.mem_singleton.mp hd']
      exact (AList.mem_insert _).mpr (.inl rfl)

/-- Every round keeps the count of every tracker. -/
theorem round {s s' : LoopState γ} {events : List Activity}
    (h : Tracked executors payments s.producer) (hround : Round s events s') :
    Tracked executors (payments ++ dispatches events) s'.producer := by
  cases hround with
  | @stopped event rest tracker hpop htracker hmet =>
    simp only [dispatches_stopped, dispatches_nil, List.append_nil]
    exact h.heap_sub fun e he => by simp [MinHeap.toList_of_pop hpop, he]
  | @skipped event rest tracker delay p hpop htracker hunmet hamount hgenerate =>
    simp only [dispatches_scheduled, dispatches_nil, List.append_nil]
    exact (h.heap_sub fun e he => by simp [MinHeap.toList_of_pop hpop, he]).generatePayment
      hgenerate
  | @dispatched event rest tracker now delay p hpop htracker hunmet hamount hnow hgenerate =>
    simp only [dispatches_scheduled, dispatches_dispatched, dispatches_nil]
    have hrest : Tracked executors payments (s.producer.withHeap rest) :=
      h.heap_sub fun e he => by simp [MinHeap.toList_of_pop hpop, he]
    exact (hrest.complete (d := ⟨event, now⟩) htracker hunmet).generatePayment hgenerate

/-- Tracking one more executor, before any payment. -/
theorem insert {ex : ExecutorKit γ} (h : Tracked executors [] p) (hex : ex ∈ executors) :
    Tracked executors []
      { p with paymentsTracker := p.paymentsTracker.insert ex.source ⟨ex, 0⟩ } := by
  constructor
  · intro source tracker hlookup
    rcases Table.lookup_insert_cases hlookup with ⟨rfl, rfl⟩ | ⟨-, hlookup⟩
    · exact ⟨hex, rfl⟩
    · exact h.known hlookup
  · intro source tracker hlookup
    rcases Table.lookup_insert_cases hlookup with ⟨rfl, rfl⟩ | ⟨-, hlookup⟩
    · rfl
    · exact h.counted hlookup
  · intro source tracker c _ _
    simp
  · intro e he
    exact (AList.mem_insert _).mpr (.inr (h.queued e he))
  · simp

/-- Setting up the executors, by induction on the list that is left. -/
theorem setupExecutors {now : SystemTime} {left : List (ExecutorKit γ)} {log : List Activity}
    (hleft : ∀ ex ∈ left, ex ∈ executors) (h : Tracked executors [] p)
    (hsetup : setupExecutors now left p = .ok (log, p')) :
    Tracked executors [] p' ∧ dispatches log = [] := by
  induction left generalizing p log with
  | nil =>
    cases hsetup
    exact ⟨h, rfl⟩
  | cons ex rest ih =>
    rw [SimLn.setupExecutors] at hsetup
    split at hsetup
    · cases hsetup
    next delay q hgenerate =>
      split at hsetup
      · cases hsetup
      next log' q' hrest =>
        cases hsetup
        have hq := (h.insert (hleft ex (by simp))).generatePayment hgenerate
        obtain ⟨hp', hlog⟩ := ih (fun ex' hex' => hleft ex' (by simp [hex'])) hq hrest
        exact ⟨hp', by simpa using hlog⟩

/-- At first nothing is tracked. -/
theorem empty (g : γ) :
    Tracked executors [] { heap := .empty, paymentsTracker := ∅, generators := g } := by
  constructor <;> simp

end Tracked

variable {executors : List (ExecutorKit γ)} {start : SystemTime} {g : γ} {p : Producer γ}
  {nodes : Table PublicKey NodeInfo} {s : LoopState γ} {log₀ log : List Activity}

/-- No payment is dispatched while the executors are set up. -/
theorem tracked_setupPaymentEvents
    (hsetup : setupPaymentEvents executors start g = .ok (log₀, p)) :
    Tracked executors [] p ∧ dispatches log₀ = [] :=
  Tracked.setupExecutors (by simp) (.empty g) hsetup

/-- The trackers agree with the log in every state of the loop. -/
theorem run_tracked (hsetup : setupPaymentEvents executors start g = .ok (log₀, p))
    (hrun : (LoopState.iteration nodes).Run ⟨p, start⟩ log s) :
    Tracked executors (dispatches log) s.producer := by
  refine hrun.invariant (I := fun log (s : LoopState γ) => Tracked executors (dispatches log) s.producer)
    (tracked_setupPaymentEvents hsetup).1 fun log s events s' h hnext => ?_
  rw [dispatches_append]
  exact h.round (iteration_round hnext)

/-! ## The measure -/

/-- The number of payments that the tracker of a source counts. -/
def Producer.completed (p : Producer γ) (source : PublicKey) : Nat :=
  ((p.paymentsTracker.lookup source).map (·.paymentsCompleted)).getD 0

/-- The counter of the completed source grows by one, the others stand still. -/
theorem Producer.completed_complete {p : Producer γ} {source : PublicKey}
    {tracker : ExecutorPaymentTracker γ} (h : p.paymentsTracker.lookup source = some tracker)
    (other : PublicKey) :
    (p.complete source tracker).completed other
      = p.completed other + if other = source then 1 else 0 := by
  by_cases hs : other = source
  · subst hs
    simp [completed, complete, h]
  · simp [completed, complete, AList.lookup_insert_ne hs, hs]

/-- How many rounds the queued events can still cause, if no source completes more payments than
its bound: each event may be dispatched until the bound is reached, and is then dropped. -/
def Producer.remaining (bound : PublicKey → Nat) (p : Producer γ) : Nat :=
  (p.heap.toList.map fun e => bound e.source + 1 - p.completed e.source).sum

/-- A round decreases the measure when the popped source is within its bound and its payment is not
of amount zero. -/
theorem remaining_lt_of_round {bound : PublicKey → Nat} {s' : LoopState γ}
    {events : List Activity} (hround : Round s events s')
    (hbound : ∀ e ∈ s.producer.heap.toList, s.producer.completed e.source ≤ bound e.source)
    (hamount : ∀ e ∈ s.producer.heap.toList, e.amount ≠ 0) :
    s'.producer.remaining bound < s.producer.remaining bound := by
  have hpopped : ∀ {event rest}, s.producer.heap.pop = some (event, rest) →
      s.producer.remaining bound = bound event.source + 1 - s.producer.completed event.source
        + (rest.toList.map fun e => bound e.source + 1 - s.producer.completed e.source).sum := by
    intro event rest hpop
    rw [Producer.remaining, MinHeap.toList_of_pop hpop, List.map_cons, List.sum_cons]
  cases hround with
  | @stopped event rest tracker hpop htracker hmet =>
    have hle := hbound event (by simp [MinHeap.toList_of_pop hpop])
    rw [hpopped hpop]
    show (rest.toList.map fun e => bound e.source + 1 - s.producer.completed e.source).sum < _
    omega
  | @skipped event rest tracker delay p hpop htracker hunmet hzero hgenerate =>
    exact absurd hzero (hamount event (by simp [MinHeap.toList_of_pop hpop]))
  | @dispatched event rest tracker now delay p hpop htracker hunmet hne hnow hgenerate =>
    have hle := hbound event (by simp [MinHeap.toList_of_pop hpop])
    obtain ⟨tracker', destination, amount, g, -, -, -, -, rfl⟩ :=
      Producer.generatePayment_ok hgenerate
    have hcompleted := Producer.completed_complete (p := s.producer.withHeap rest) htracker
    -- no counter has gone down, so the other events have no more rounds left
    have hrest : (rest.toList.map fun e => bound e.source + 1
        - ((s.producer.withHeap rest).complete event.source tracker).completed e.source).sum
        ≤ (rest.toList.map fun e => bound e.source + 1 - s.producer.completed e.source).sum := by
      refine List.sum_le_sum fun e _ => ?_
      have hle : s.producer.completed e.source
          ≤ ((s.producer.withHeap rest).complete event.source tracker).completed e.source := by
        rw [hcompleted]
        exact Nat.le_add_right _ _
      omega
    -- the source has one payment fewer to make before its bound
    have hhead : ((s.producer.withHeap rest).complete event.source tracker).completed event.source
        = s.producer.completed event.source + 1 := by
      rw [hcompleted, if_pos rfl]
      rfl
    rw [hpopped hpop]
    show ((MinHeap.push rest _).toList.map fun e => bound e.source + 1
      - ((s.producer.withHeap rest).complete event.source tracker).completed e.source).sum < _
    rw [((MinHeap.push_perm rest _).map _).sum_eq, List.map_cons, List.sum_cons]
    show bound event.source + 1
      - ((s.producer.withHeap rest).complete event.source tracker).completed event.source + _ < _
    rw [hhead]
    omega

end SimLn
