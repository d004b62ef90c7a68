import SimLn.Scheduler
import Mathlib.Tactic.SplitIfs

/-!
# SimLn — what one round of the scheduler does

`Round` lists the three ways a round of the loop can go on, with the guards passed on the way;
`iteration_round` shows that there is no other. The two lemmas on `generatePayment` say what it
draws and pushes, and why it fails. Everything later is proved from these, not from the
definitions.
-/

namespace SimLn

open Lib

variable {γ : Type}

namespace ExecutorKit

/-- `delay` is a wait that the executor's generator can draw. -/
def Waits (ex : ExecutorKit γ) (delay : Duration) : Prop :=
  ∃ g g', ex.paymentGenerator.nextPaymentWait g = .ok (delay, g')

/-- `delay` comes before the payment that follows `completed` others: the start delay, if there is
one, before the first, else a wait. -/
def Delays (ex : ExecutorKit γ) (completed : Nat) (delay : Duration) : Prop :=
  if completed = 0 ∧ ex.paymentGenerator.paymentStart.isSome then
    ex.paymentGenerator.paymentStart = some delay
  else
    ex.Waits delay

/-- The executor's generators can draw a payment of `amount` to `destination`. -/
def Pays (ex : ExecutorKit γ) (destination : NodeInfo) (amount : UInt64) : Prop :=
  ∃ g g' g'' capacity,
    ex.networkGenerator.chooseDestination ex.source g = .ok ((destination, capacity), g') ∧
    ex.paymentGenerator.paymentAmount capacity g' = .ok (amount, g'')

/-- No draw of the executor's generators fails. -/
structure NeverFails (ex : ExecutorKit γ) : Prop where
  wait : ∀ g e, ex.paymentGenerator.nextPaymentWait g ≠ .error e
  destination : ∀ g e, ex.networkGenerator.chooseDestination ex.source g ≠ .error e
  amount : ∀ g g' destination capacity e,
    ex.networkGenerator.chooseDestination ex.source g = .ok ((destination, capacity), g') →
    ex.paymentGenerator.paymentAmount capacity g' ≠ .error e

end ExecutorKit

/-- The delay drawn for an executor is one of its activity's delays. -/
theorem delays_of_getPaymentDelay {ex : ExecutorKit γ} {completed : Nat} {g g' : γ}
    {delay : Duration}
    (h : getPaymentDelay completed ex.paymentGenerator g = .ok (delay, g')) :
    ex.Delays completed delay := by
  have hwait : (ex.paymentGenerator.nextPaymentWait g).mapError SimulationError.paymentGenerationError
      = .ok (delay, g') → ex.Waits delay := by
    intro hok
    refine ⟨g, g', ?_⟩
    cases hw : ex.paymentGenerator.nextPaymentWait g with
    | error e => simp [hw, Except.mapError] at hok
    | ok x => simpa [hw, Except.mapError] using hok
  unfold getPaymentDelay at h
  by_cases hc : completed = 0
  · rw [if_neg (by simpa using hc)] at h
    cases hs : ex.paymentGenerator.paymentStart with
    | none =>
      rw [hs] at h
      simpa [ExecutorKit.Delays, hs] using hwait h
    | some start =>
      rw [hs] at h
      cases h
      simp [ExecutorKit.Delays, hs, hc]
  · rw [if_pos hc] at h
    simpa [ExecutorKit.Delays, hc] using hwait h

namespace Producer

@[simp] theorem withHeap_heap (p : Producer γ) (heap : EventHeap) :
    (p.withHeap heap).heap = heap := rfl

@[simp] theorem withHeap_paymentsTracker (p : Producer γ) (heap : EventHeap) :
    (p.withHeap heap).paymentsTracker = p.paymentsTracker := rfl

@[simp] theorem complete_heap (p : Producer γ) (source : PublicKey)
    (tracker : ExecutorPaymentTracker γ) : (p.complete source tracker).heap = p.heap := rfl

variable {p p' : Producer γ} {pubkey : PublicKey} {base : SystemTime} {delay : Duration}

/-- What is drawn for the next payment of a source: the delay, the destination and the amount, in
this order. -/
def Draws (p : Producer γ) (pubkey : PublicKey) (delay : Duration) (destination : NodeInfo)
    (amount : UInt64) (g : γ) : Prop :=
  ∃ tracker g₁ g₂ capacity, p.paymentsTracker.lookup pubkey = some tracker ∧
    getPaymentDelay tracker.paymentsCompleted tracker.executor.paymentGenerator p.generators
      = .ok (delay, g₁) ∧
    tracker.executor.networkGenerator.chooseDestination tracker.executor.source g₁
      = .ok ((destination, capacity), g₂) ∧
    tracker.executor.paymentGenerator.paymentAmount capacity g₂ = .ok (amount, g)

/-- Generating a payment draws once and pushes one event at that delay. -/
theorem generatePayment_draws (h : p.generatePayment pubkey base = .ok (delay, p')) :
    ∃ destination amount g, p.Draws pubkey delay destination amount g ∧
      base + delay < SystemTime.limit ∧
      p' = { p with
        heap := p.heap.push
          { source := pubkey, executionTime := base + delay, destination, amount }
        generators := g } := by
  unfold generatePayment at h
  split at h
  · cases h
  next tracker htracker =>
    split at h
    · cases h
    next waitTime g₁ hdelay =>
      split at h
      · cases h
      next absoluteTime htime =>
        split at h
        · cases h
        next destination capacity g₂ hdest =>
          split at h
          · cases h
          next amount g hamount =>
            obtain ⟨hlimit, rfl⟩ := SystemTime.checkedAdd_eq_some.mp htime
            cases h
            exact ⟨destination, amount, g,
              ⟨tracker, g₁, g₂, capacity, htracker, hdelay, hdest, hamount⟩, hlimit, rfl⟩

/-- What `generatePayment` draws and pushes. -/
theorem generatePayment_ok (h : p.generatePayment pubkey base = .ok (delay, p')) :
    ∃ tracker destination amount g,
      p.paymentsTracker.lookup pubkey = some tracker ∧
      tracker.executor.Delays tracker.paymentsCompleted delay ∧
      tracker.executor.Pays destination amount ∧
      base + delay < SystemTime.limit ∧
      p' = { p with
        heap := p.heap.push
          { source := pubkey, executionTime := base + delay, destination, amount }
        generators := g } := by
  obtain ⟨destination, amount, g, ⟨tracker, g₁, g₂, capacity, htracker, hdelay, hdest, hamount⟩,
    hlimit, hp'⟩ := generatePayment_draws h
  exact ⟨tracker, destination, amount, g, htracker, delays_of_getPaymentDelay hdelay,
    ⟨g₁, g₂, g, capacity, hdest, hamount⟩, hlimit, hp'⟩

/-- The only failure left to a tracked executor whose draws never fail is a time past the last
one that can be represented. -/
theorem generatePayment_error {tracker : ExecutorPaymentTracker γ} {e : SimulationError}
    (htracker : p.paymentsTracker.lookup pubkey = some tracker)
    (hfail : tracker.executor.NeverFails) (h : p.generatePayment pubkey base = .error e) :
    e = absoluteTimeOverflow ∧ ∃ delay, tracker.executor.Delays tracker.paymentsCompleted delay ∧
      SystemTime.limit ≤ base + delay := by
  unfold generatePayment at h
  rw [htracker] at h
  simp only at h
  split at h
  next e' hdelay =>
    -- the delay cannot fail to be drawn, whichever branch draws it
    exfalso
    unfold getPaymentDelay at hdelay
    split at hdelay
    · cases hw : tracker.executor.paymentGenerator.nextPaymentWait p.generators with
      | error e'' => exact hfail.wait _ _ hw
      | ok x => simp [hw, Except.mapError] at hdelay
    · split at hdelay
      · cases hdelay
      · cases hw : tracker.executor.paymentGenerator.nextPaymentWait p.generators with
        | error e'' => exact hfail.wait _ _ hw
        | ok x => simp [hw, Except.mapError] at hdelay
  next waitTime g hdelay =>
    split at h
    next htime =>
      cases h
      exact ⟨rfl, waitTime, delays_of_getPaymentDelay hdelay,
        SystemTime.checkedAdd_eq_none.mp htime⟩
    next absoluteTime htime =>
      split at h
      next hdest => exact absurd hdest (hfail.destination _ _)
      next destination capacity g' hdest =>
        split at h
        next hamount => exact absurd hamount (hfail.amount _ _ _ _ _ hdest)
        next => cases h

end Producer

/-! ## One event for each source -/

namespace Producer

/-- No source has two events queued. The order of the events is total then: no two of them have the
same key. -/
def Single (p : Producer γ) : Prop := (p.heap.toList.map (·.source)).Nodup

namespace Single

variable {p p' : Producer γ}

/-- After a pop the heap has at most one event of each other source, and none of the one popped. -/
theorem pop {event : PaymentEvent} {rest : EventHeap} (h : p.Single)
    (hpop : p.heap.pop = some (event, rest)) :
    (p.withHeap rest).Single ∧ ∀ e ∈ rest.toList, e.source ≠ event.source := by
  unfold Single at h
  rw [MinHeap.toList_of_pop hpop, List.map_cons, List.nodup_cons] at h
  exact ⟨h.2, fun e he heq => h.1 (heq ▸ List.mem_map_of_mem he)⟩

/-- A source without an event gets one. -/
theorem generatePayment {pubkey : PublicKey} {base : SystemTime} {delay : Duration} (h : p.Single)
    (hfresh : ∀ e ∈ p.heap.toList, e.source ≠ pubkey)
    (hgenerate : p.generatePayment pubkey base = .ok (delay, p')) : p'.Single := by
  obtain ⟨tracker, destination, amount, g, -, -, -, -, rfl⟩ := generatePayment_ok hgenerate
  -- the order in the heap does not matter
  refine ((MinHeap.push_perm _ _).map _).nodup_iff.mpr (List.nodup_cons.mpr ⟨?_, h⟩)
  intro hmem
  obtain ⟨e, he, hsource⟩ := List.mem_map.mp hmem
  exact hfresh e he hsource

/-- Setting up executors with distinct sources. Induction on the executors that are left: none of
their sources has an event yet. -/
theorem setupExecutors {now : SystemTime} {left : List (ExecutorKit γ)} {log : List Activity}
    (h : p.Single) (hdistinct : (left.map (·.source)).Nodup)
    (hfresh : ∀ ex ∈ left, ∀ e ∈ p.heap.toList, e.source ≠ ex.source)
    (hsetup : setupExecutors now left p = .ok (log, p')) : p'.Single := by
  induction left generalizing p log with
  | nil =>
    cases hsetup
    exact h
  | cons ex rest ih =>
    rw [List.map_cons, List.nodup_cons] at hdistinct
    rw [SimLn.setupExecutors] at hsetup
    split at hsetup
    · cases hsetup
    next delay q hgenerate =>
      split at hsetup
      · cases hsetup
      next log' q' hrest =>
        cases hsetup
        have htracked : Single
            { p with paymentsTracker := p.paymentsTracker.insert ex.source ⟨ex, 0⟩ } := h
        refine ih (htracked.generatePayment (hfresh ex (by simp)) hgenerate) hdistinct.2 ?_ hrest
        obtain ⟨tracker, destination, amount, g, -, -, -, -, rfl⟩ := generatePayment_ok hgenerate
        intro ex' hex' e he
        rcases MinHeap.mem_push.mp he with rfl | he
        · exact fun heq => hdistinct.1 (List.mem_map.mpr ⟨ex', hex', heq.symm⟩)
        · exact hfresh ex' (by simp [hex']) e he

end Single
end Producer

/-- Sources that differ start with at most one event each. -/
theorem single_setupPaymentEvents {executors : List (ExecutorKit γ)} {now : SystemTime} {g : γ}
    {log : List Activity} {p : Producer γ} (hdistinct : (executors.map (·.source)).Nodup)
    (hsetup : setupPaymentEvents executors now g = .ok (log, p)) : p.Single := by
  have hempty : ({ heap := .empty, paymentsTracker := ∅, generators := g } : Producer γ).Single :=
    List.nodup_nil
  refine hempty.setupExecutors ?_ (by simp) hsetup
  exact ((List.perm_insertionSort _ executors).map _).nodup_iff.mpr hdistinct

/-! ## Rounds -/

/-- What popping an event at time `now` comes to, with the guards passed on the way. -/
inductive Pops (nodes : Table PublicKey NodeInfo) (p : Producer γ) (now : SystemTime) :
    PoppedEvent γ → Prop where
  | finished (hpop : p.heap.pop = none) : Pops nodes p now .finished
  | untracked {event : PaymentEvent} {rest : EventHeap}
      (hpop : p.heap.pop = some (event, rest))
      (htracker : p.paymentsTracker.lookup event.source = none) :
      Pops nodes p now (.failed (executorNotFound event.source))
  | stopped {event : PaymentEvent} {rest : EventHeap} {tracker : ExecutorPaymentTracker γ}
      (hpop : p.heap.pop = some (event, rest))
      (htracker : p.paymentsTracker.lookup event.source = some tracker)
      (hmet : tracker.executor.count = some tracker.paymentsCompleted) :
      Pops nodes p now (.stopped event.source (p.withHeap rest))
  | missing {event : PaymentEvent} {rest : EventHeap}
      (hpop : p.heap.pop = some (event, rest)) (hnode : event.source ∉ nodes) :
      Pops nodes p now (.failed (.missingNodeError s!"Source node not found, {event.source}"))
  | notSkipped {event : PaymentEvent} {rest : EventHeap} {e : SimulationError}
      (hpop : p.heap.pop = some (event, rest)) (hamount : event.amount = 0)
      (hgenerate : (p.withHeap rest).generatePayment event.source now = .error e) :
      Pops nodes p now (.failed e)
  | skipped {event : PaymentEvent} {rest : EventHeap} {tracker : ExecutorPaymentTracker γ}
      {delay : Duration} {p' : Producer γ}
      (hpop : p.heap.pop = some (event, rest))
      (htracker : p.paymentsTracker.lookup event.source = some tracker)
      (hunmet : tracker.executor.count ≠ some tracker.paymentsCompleted)
      (hamount : event.amount = 0)
      (hgenerate : (p.withHeap rest).generatePayment event.source now
        = .ok (delay, p')) :
      Pops nodes p now (.skipped event.source delay p')
  | sleeping {event : PaymentEvent} {rest : EventHeap} {tracker : ExecutorPaymentTracker γ}
      (hpop : p.heap.pop = some (event, rest))
      (htracker : p.paymentsTracker.lookup event.source = some tracker)
      (hunmet : tracker.executor.count ≠ some tracker.paymentsCompleted)
      (hnode : event.source ∈ nodes) (hamount : event.amount ≠ 0) :
      Pops nodes p now (.sleeping event (waitTime event.executionTime now)
        ((p.withHeap rest).complete event.source tracker))

/-- Every pop is one of the cases of `Pops`. -/
theorem Producer.pops_popEvent (nodes : Table PublicKey NodeInfo) (p : Producer γ)
    (now : SystemTime) : Pops nodes p now (p.popEvent nodes now) := by
  unfold Producer.popEvent
  cases hpop : p.heap.pop with
  | none => exact .finished hpop
  | some popped =>
    obtain ⟨event, rest⟩ := popped
    simp only [Producer.withHeap_paymentsTracker]
    cases htracker : p.paymentsTracker.lookup event.source with
    | none => exact .untracked hpop htracker
    | some tracker =>
      simp only
      split_ifs with hmet hnode hamount
      · exact .stopped hpop htracker hmet
      · cases hgenerate : (p.withHeap rest).generatePayment event.source now with
        | error e => exact .notSkipped hpop hamount hgenerate
        | ok generated => exact .skipped hpop htracker hmet hamount hgenerate
      · exact .sleeping hpop htracker hmet hnode hamount
      · exact .missing hpop hnode

/-- The ways the loop goes on after popping an event. -/
inductive Round (s : LoopState γ) : List Activity → LoopState γ → Prop where
  | stopped {event : PaymentEvent} {rest : EventHeap} {tracker : ExecutorPaymentTracker γ}
      (hpop : s.producer.heap.pop = some (event, rest))
      (htracker : s.producer.paymentsTracker.lookup event.source = some tracker)
      (hmet : tracker.executor.count = some tracker.paymentsCompleted) :
      Round s [.stopped event.source] { s with producer := s.producer.withHeap rest }
  | skipped {event : PaymentEvent} {rest : EventHeap} {tracker : ExecutorPaymentTracker γ}
      {delay : Duration} {p : Producer γ}
      (hpop : s.producer.heap.pop = some (event, rest))
      (htracker : s.producer.paymentsTracker.lookup event.source = some tracker)
      (hunmet : tracker.executor.count ≠ some tracker.paymentsCompleted)
      (hamount : event.amount = 0)
      (hgenerate : (s.producer.withHeap rest).generatePayment event.source s.now
        = .ok (delay, p)) :
      Round s [.scheduled event.source delay] { s with producer := p }
  | dispatched {event : PaymentEvent} {rest : EventHeap} {tracker : ExecutorPaymentTracker γ}
      {now : SystemTime} {delay : Duration} {p : Producer γ}
      (hpop : s.producer.heap.pop = some (event, rest))
      (htracker : s.producer.paymentsTracker.lookup event.source = some tracker)
      (hunmet : tracker.executor.count ≠ some tracker.paymentsCompleted)
      (hamount : event.amount ≠ 0)
      (hnow : now = s.now + waitTime event.executionTime s.now)
      (hgenerate : ((s.producer.withHeap rest).complete event.source
        tracker).generatePayment event.source now = .ok (delay, p)) :
      Round s [.scheduled event.source delay, .dispatched ⟨event, now⟩] { producer := p, now }

variable {nodes : Table PublicKey NodeInfo} {s s' : LoopState γ} {events : List Activity}

/-- Every iteration that goes on is a round. -/
theorem iteration_round (h : LoopState.iteration nodes s = .next events s') : Round s events s' := by
  unfold LoopState.iteration at h
  have hpops := s.producer.pops_popEvent nodes s.now
  generalize s.producer.popEvent nodes s.now = popped at h hpops
  cases hpops with
  | finished | untracked | missing | notSkipped => simp at h
  | stopped hpop htracker hmet =>
    cases h
    exact .stopped hpop htracker hmet
  | skipped hpop htracker hunmet hamount hgenerate =>
    cases h
    exact .skipped hpop htracker hunmet hamount hgenerate
  | sleeping hpop htracker hunmet hnode hamount =>
    simp only [LoopState.wake] at h
    split at h
    · cases h
    next hgenerate =>
      cases h
      exact .dispatched hpop htracker hunmet hamount rfl hgenerate

/-- A round that sleeps and then generates the next payment of the source. -/
theorem iteration_dispatched {p q q' : Producer γ} {now : SystemTime} {event : PaymentEvent}
    {wait delay : Duration} (hpop : p.popEvent nodes now = .sleeping event wait q)
    (hgenerate : q.generatePayment event.source (now + wait) = .ok (delay, q')) :
    LoopState.iteration nodes ⟨p, now⟩
      = .next [.scheduled event.source delay, .dispatched ⟨event, now + wait⟩]
          ⟨q', now + wait⟩ := by
  simp only [LoopState.iteration, hpop, LoopState.wake, hgenerate]

/-- The loop returns because the heap is empty or because an event fails: for want of a tracker or
a node, or because the next event cannot be generated. -/
theorem iteration_returned {result : Except SimulationError Unit}
    (h : LoopState.iteration nodes s = .returned result) :
    (result = .ok () ∧ s.producer.heap.toList = []) ∨
    ∃ event rest e, s.producer.heap.pop = some (event, rest) ∧ result = .error e ∧
      (s.producer.paymentsTracker.lookup event.source = none ∨ event.source ∉ nodes ∨
        (event.amount = 0 ∧
          (s.producer.withHeap rest).generatePayment event.source s.now = .error e) ∨
        ∃ tracker, s.producer.paymentsTracker.lookup event.source = some tracker ∧
          tracker.executor.count ≠ some tracker.paymentsCompleted ∧
          ((s.producer.withHeap rest).complete event.source tracker).generatePayment
            event.source (s.now + waitTime event.executionTime s.now) = .error e) := by
  unfold LoopState.iteration at h
  have hpops := s.producer.pops_popEvent nodes s.now
  generalize s.producer.popEvent nodes s.now = popped at h hpops
  cases hpops with
  | finished hpop =>
    cases h
    exact .inl ⟨rfl, MinHeap.toList_of_pop_none hpop⟩
  | untracked hpop htracker =>
    cases h
    exact .inr ⟨_, _, _, hpop, rfl, .inl htracker⟩
  | missing hpop hnode =>
    cases h
    exact .inr ⟨_, _, _, hpop, rfl, .inr (.inl hnode)⟩
  | notSkipped hpop hamount hgenerate =>
    cases h
    exact .inr ⟨_, _, _, hpop, rfl, .inr (.inr (.inl ⟨hamount, hgenerate⟩))⟩
  | stopped | skipped => cases h
  | sleeping hpop htracker hunmet hnode hamount =>
    simp only [LoopState.wake] at h
    split at h
    next hgenerate =>
      cases h
      exact .inr ⟨_, _, _, hpop, rfl, .inr (.inr (.inr ⟨_, htracker, hunmet, hgenerate⟩))⟩
    · cases h

end SimLn
