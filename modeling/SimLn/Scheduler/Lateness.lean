import SimLn.Scheduler.Clocked
import SimLn.Scheduler.Trackers

/-!
# SimLn — late sleeps and the order of payments

The next execution time is counted from the clock reading after the sleep, so a sleep that ends late
moves all later payments of its source. Two producers with the same generators draw the same
payments, at whatever times, as long as what is due first belongs to one source in both (`Alike.round`).
-/

namespace SimLn

open Lib

/-- What is paid, whenever it is. -/
def PaymentEvent.payment (event : PaymentEvent) : PublicKey × NodeInfo × UInt64 :=
  (event.source, event.destination, event.amount)

/-- One payment has one source, whenever it is due. -/
theorem PaymentEvent.source_eq {e e' : PaymentEvent} (h : e.payment = e'.payment) :
    e.source = e'.source := congrArg Prod.fst h

/-- Events of one payment differ in their execution times only. -/
theorem PaymentEvent.untimed_eq {e e' : PaymentEvent} (h : e.payment = e'.payment) :
    { e with executionTime := 0 } = { e' with executionTime := 0 } := by
  obtain ⟨source, time, destination, amount⟩ := e
  obtain ⟨source', time', destination', amount'⟩ := e'
  cases h
  rfl

/-- One payment has one amount, whenever it is due. -/
theorem PaymentEvent.amount_eq {e e' : PaymentEvent} (h : e.payment = e'.payment) :
    e.amount = e'.amount := congrArg (fun payment => payment.2.2) h

/-- The payments in a log, without their times. -/
def paid (log : List Activity) : List (PublicKey × NodeInfo × UInt64) :=
  (dispatches log).map (·.event.payment)

@[simp] theorem paid_append (log log' : List Activity) :
    paid (log ++ log') = paid log ++ paid log' := by
  simp [paid]

/-- What is done, whenever it is. -/
def Activity.untimed : Activity → Activity
  | .dispatched payment => .dispatched ⟨{ payment.event with executionTime := 0 }, 0⟩
  | activity => activity

/-- What was paid does not depend on when. -/
theorem paid_untimed (log : List Activity) : paid (log.map Activity.untimed) = paid log := by
  induction log with
  | nil => rfl
  | cons activity rest ih =>
    have hsplit : ∀ a : Activity, ∀ l, paid (a :: l) = paid [a] ++ paid l := fun a l =>
      paid_append [a] l
    rw [List.map_cons, hsplit, ih, hsplit activity rest]
    cases activity <;> rfl

def halfSecond : Duration := 500000000

variable {γ : Type} {clock clock' : Clock} {nodes : Table PublicKey NodeInfo}

/-- The payments come in one order, however late the sleeps end. -/
def OrderSurvives (nodes : Table PublicKey NodeInfo) (start : LoopState γ) : Prop :=
  ∀ log s log' s', ClockedRun (.late halfSecond) nodes start log s →
    ClockedRun (.late halfSecond) nodes start log' s' →
    paid log <+: paid log' ∨ paid log' <+: paid log

/-! ## Producers that are alike -/

/-- Producers that have drawn the same, but perhaps scheduled it for other times. -/
structure Alike (p p' : Producer γ) : Prop where
  trackers : p'.paymentsTracker = p.paymentsTracker
  generators : p'.generators = p.generators
  queued : (p.heap.toList.map PaymentEvent.payment).Perm (p'.heap.toList.map PaymentEvent.payment)

/-- What is due first in the two heaps belongs to one source. -/
def SameFirst (p p' : Producer γ) : Prop :=
  ∀ e rest e' rest', p.heap.pop = some (e, rest) → p'.heap.pop = some (e', rest') →
    e.source = e'.source

theorem Alike.refl (p : Producer γ) : Alike p p := ⟨rfl, rfl, .refl _⟩

/-- A source's generators and one state of the seed determine what is drawn. -/
theorem Producer.Draws.unique {p : Producer γ} {pubkey : PublicKey} {delay delay' : Duration}
    {destination destination' : NodeInfo} {amount amount' : UInt64} {g g' : γ}
    (h : p.Draws pubkey delay destination amount g)
    (h' : p.Draws pubkey delay' destination' amount' g') :
    delay = delay' ∧ destination = destination' ∧ amount = amount' ∧ g = g' := by
  obtain ⟨tracker, g₁, g₂, capacity, htracker, hdelay, hdestination, hamount⟩ := h
  obtain ⟨tracker', g₁', g₂', capacity', htracker', hdelay', hdestination', hamount'⟩ := h'
  rw [htracker] at htracker'
  cases htracker'
  rw [hdelay] at hdelay'
  cases hdelay'
  rw [hdestination] at hdestination'
  cases hdestination'
  rw [hamount] at hamount'
  cases hamount'
  exact ⟨rfl, rfl, rfl, rfl⟩

namespace Alike

variable {p p' q q' : Producer γ} {event event' : PaymentEvent} {rest rest' : EventHeap}

/-- What is queued in one heap is queued in the other. -/
theorem exists_queued (h : Alike p p') {e' : PaymentEvent} (he' : e' ∈ p'.heap.toList) :
    ∃ e ∈ p.heap.toList, e.payment = e'.payment :=
  List.mem_map.mp (h.queued.mem_iff.mpr (List.mem_map_of_mem he'))

/-- Producers are alike in either order. -/
theorem symm (h : Alike p p') : Alike p' p :=
  ⟨h.trackers.symm, h.generators.symm, h.queued.symm⟩

/-- If what is due first belongs to one source, the same payment is popped, of a source with the same
tracker. -/
theorem pop {tracker tracker' : ExecutorPaymentTracker γ} (h : Alike p p') (hsingle : p'.Single)
    (hfirst : SameFirst p p') (hpop : p.heap.pop = some (event, rest))
    (hpop' : p'.heap.pop = some (event', rest'))
    (htracker : p.paymentsTracker.lookup event.source = some tracker)
    (htracker' : p'.paymentsTracker.lookup event'.source = some tracker') :
    event.payment = event'.payment ∧ tracker = tracker' ∧
      Alike (p.withHeap rest) (p'.withHeap rest') := by
  have hsource := hfirst _ _ _ _ hpop hpop'
  rw [h.trackers, ← hsource, htracker] at htracker'
  have hqueued := h.queued
  rw [MinHeap.toList_of_pop hpop, MinHeap.toList_of_pop hpop', List.map_cons, List.map_cons]
    at hqueued
  have hpayment : event.payment = event'.payment := by
    have hmem : event.payment ∈ event'.payment :: rest'.toList.map PaymentEvent.payment :=
      hqueued.mem_iff.mp (by simp)
    -- a second event of that source is not queued
    refine (List.mem_cons.mp hmem).resolve_right fun hrest => ?_
    obtain ⟨e, he, hsame⟩ := List.mem_map.mp hrest
    exact (hsingle.pop hpop').2 e he ((PaymentEvent.source_eq hsame).trans hsource)
  rw [hpayment] at hqueued
  exact ⟨hpayment, Option.some.inj htracker', h.trackers, h.generators, hqueued.cons_inv⟩

/-- Alike producers draw the same delay for a source and stay alike, whatever instants they count from.
-/
theorem generatePayment {pubkey : PublicKey} {base base' : SystemTime} {delay delay' : Duration}
    (h : Alike p p') (hgenerate : p.generatePayment pubkey base = .ok (delay, q))
    (hgenerate' : p'.generatePayment pubkey base' = .ok (delay', q')) :
    delay = delay' ∧ Alike q q' := by
  obtain ⟨destination, amount, g, hdraws, -, rfl⟩ := Producer.generatePayment_draws hgenerate
  obtain ⟨destination', amount', g', hdraws', -, rfl⟩ := Producer.generatePayment_draws hgenerate'
  unfold Producer.Draws at hdraws'
  rw [h.trackers, h.generators] at hdraws'
  obtain ⟨rfl, rfl, rfl, rfl⟩ := Producer.Draws.unique hdraws hdraws'
  refine ⟨rfl, h.trackers, rfl, ?_⟩
  -- the same payment is pushed, at whatever time it is due
  have hpush := (MinHeap.push_perm p.heap
    ⟨pubkey, base + delay, destination, amount⟩).map PaymentEvent.payment
  have hpush' := (MinHeap.push_perm p'.heap
    ⟨pubkey, base' + delay, destination, amount⟩).map PaymentEvent.payment
  exact hpush.trans ((h.queued.cons _).trans hpush'.symm)

/-- Counting a payment of one source leaves alike producers alike. -/
theorem complete (h : Alike p p') (source : PublicKey) (tracker : ExecutorPaymentTracker γ) :
    Alike (p.complete source tracker) (p'.complete source tracker) where
  trackers := by
    unfold Producer.complete
    rw [h.trackers]
  generators := h.generators
  queued := h.queued

/-- A round of each, before which one source is due first in both, does the same in both: they pop the
same payment, whose amount and tracker decide how they go on. -/
theorem round {events events' : List Activity} (h : Alike p p') (hsingle : p'.Single)
    (hfirst : SameFirst p p') (hround : UntimedRound p events q) (hround' : UntimedRound p' events' q') :
    events.map Activity.untimed = events'.map Activity.untimed ∧ Alike q q' := by
  cases hround with
  | stopped hpop htracker hmet =>
    cases hround' with
    | stopped hpop' htracker' _ =>
      obtain ⟨hpayment, -, hrest⟩ := h.pop hsingle hfirst hpop hpop' htracker htracker'
      exact ⟨by rw [PaymentEvent.source_eq hpayment], hrest⟩
    | skipped hpop' htracker' hunmet' | dispatched hpop' htracker' hunmet' =>
      obtain ⟨-, rfl, -⟩ := h.pop hsingle hfirst hpop hpop' htracker htracker'
      exact absurd hmet hunmet'
  | skipped hpop htracker hunmet hamount hgenerate =>
    cases hround' with
    | stopped hpop' htracker' hmet' =>
      obtain ⟨-, rfl, -⟩ := h.pop hsingle hfirst hpop hpop' htracker htracker'
      exact absurd hmet' hunmet
    | skipped hpop' htracker' _ _ hgenerate' =>
      obtain ⟨hpayment, -, hrest⟩ := h.pop hsingle hfirst hpop hpop' htracker htracker'
      rw [← PaymentEvent.source_eq hpayment] at hgenerate' ⊢
      obtain ⟨hdelay, hnext⟩ := hrest.generatePayment hgenerate hgenerate'
      exact ⟨by rw [hdelay], hnext⟩
    | dispatched hpop' htracker' _ hamount' =>
      obtain ⟨hpayment, -, -⟩ := h.pop hsingle hfirst hpop hpop' htracker htracker'
      exact absurd ((PaymentEvent.amount_eq hpayment).symm.trans hamount) hamount'
  | dispatched hpop htracker hunmet hamount hgenerate =>
    cases hround' with
    | stopped hpop' htracker' hmet' =>
      obtain ⟨-, rfl, -⟩ := h.pop hsingle hfirst hpop hpop' htracker htracker'
      exact absurd hmet' hunmet
    | skipped hpop' htracker' _ hamount' =>
      obtain ⟨hpayment, -, -⟩ := h.pop hsingle hfirst hpop hpop' htracker htracker'
      exact absurd ((PaymentEvent.amount_eq hpayment).trans hamount') hamount
    | dispatched hpop' htracker' _ _ hgenerate' =>
      obtain ⟨hpayment, rfl, hrest⟩ := h.pop hsingle hfirst hpop hpop' htracker htracker'
      have hsource := PaymentEvent.source_eq hpayment
      rw [← hsource] at hgenerate'
      obtain ⟨hdelay, hnext⟩ := (hrest.complete _ _).generatePayment hgenerate hgenerate'
      refine ⟨?_, hnext⟩
      simp only [List.map_cons, List.map_nil, Activity.untimed, hdelay]
      rw [PaymentEvent.untimed_eq hpayment, hsource]

end Alike

/-! ## Running on a late clock -/

/-- One round of the loop, whose sleep ends late. -/
def LoopState.lateIteration (nodes : Table PublicKey NodeInfo) (late : Duration) :
    Loop Activity (LoopState γ) (Except SimulationError Unit) := fun s =>
  match s.producer.popEvent nodes s.now with
  | .finished => .returned (.ok ())
  | .failed e => .returned (.error e)
  | .stopped source p => .next [.stopped source] { s with producer := p }
  | .skipped source delay p => .next [.scheduled source delay] { s with producer := p }
  | .sleeping event wait p => LoopState.wake p event (s.now + wait + late)

/-- As many rounds as sleeps are given, each ending as late as given. -/
def LoopState.lateRun (nodes : Table PublicKey NodeInfo) :
    List Duration → LoopState γ → Option (List Activity × LoopState γ)
  | [], s => some ([], s)
  | late :: lates, s =>
    match LoopState.lateIteration nodes late s with
    | .returned _ => none
    | .next events s => (LoopState.lateRun nodes lates s).map fun (log, s) => (events ++ log, s)

/-- A round that sleeps late by `late` is a round of a clock that is late by exactly that. -/
theorem clockedRound_of_lateIteration {late : Duration} {s s' : LoopState γ} {events : List Activity}
    (h : LoopState.lateIteration nodes late s = .next events s') :
    ClockedRound (.lateBy late) nodes s events s' := by
  unfold LoopState.lateIteration at h
  cases hpop : s.producer.popEvent nodes s.now with
  | finished | failed e =>
    rw [hpop] at h
    cases h
  | stopped source p =>
    rw [hpop] at h
    cases h
    exact .stopped rfl hpop
  | skipped source delay p =>
    rw [hpop] at h
    cases h
    exact .skipped rfl hpop
  | sleeping event wait p =>
    rw [hpop] at h
    simp only [LoopState.wake] at h
    split at h
    · cases h
    next hgenerate =>
      cases h
      exact .dispatched rfl hpop rfl hgenerate rfl

/-- Rounds late by less than `bound` each make a run of a clock late by less than `bound`. -/
theorem clockedRun_of_lateRun {bound : Duration} {lates : List Duration} {s s' : LoopState γ}
    {log : List Activity} (hlates : ∀ late ∈ lates, late < bound)
    (h : LoopState.lateRun nodes lates s = some (log, s')) :
    ClockedRun (.late bound) nodes s log s' := by
  induction lates generalizing s log with
  | nil =>
    cases h
    exact .refl _
  | cons late lates ih =>
    unfold LoopState.lateRun at h
    split at h
    · cases h
    next events mid hround =>
      obtain ⟨⟨rest, t⟩, hrest, hlog⟩ := Option.map_eq_some_iff.mp h
      cases hlog
      obtain ⟨rounds, hrun, rfl⟩ := ih (fun late hlate => hlates late (by simp [hlate])) hrest
      have hfirst := (clockedRound_of_lateIteration hround).late_of_lateBy (hlates late (by simp))
      exact ⟨events :: rounds, hrun.head hfirst, by simp⟩

end SimLn
