import SimLn.Scheduler.Round
import SimLn.Lib.Steps

/-!
# SimLn — the producer on any clock

`LoopState.iteration` runs on a clock that advances by exactly the durations slept. A real clock
moves on its own, and a sleep on it ends late. `Clock` says what a clock can read, and
`ClockedRound` is a round of the producer's loop on it; on the exact clock the rounds are those of
`LoopState.iteration`. What a round does to the producer whatever the times is its `UntimedRound`.
-/

namespace SimLn

open Lib

/-- The readings that can follow `t`: `idle t t'` while the producer does not sleep, `sleep t d t'`
when it has slept for `d` since `t`. -/
structure Clock where
  idle : SystemTime → SystemTime → Prop
  sleep : SystemTime → Duration → SystemTime → Prop

/-- The clock only advances by sleeping, by exactly the duration slept. -/
def Clock.exact : Clock where
  idle t t' := t' = t
  sleep t d t' := t' = t + d

/-- As `Clock.exact`, but each sleep ends late by less than `bound`. -/
def Clock.late (bound : Duration) : Clock where
  idle t t' := t' = t
  sleep t d t' := ∃ late < bound, t' = t + d + late

/-- As `Clock.exact`, but a sleep ends late by `late`. -/
def Clock.lateBy (late : Duration) : Clock where
  idle t t' := t' = t
  sleep t d t' := t' = t + d + late

variable {γ : Type} {clock : Clock} {nodes : Table PublicKey NodeInfo}

/-- A round of the loop that does not end it. The clock is read when an event is popped and when
the sleep is over, and once more to stamp the payment. -/
inductive ClockedRound (clock : Clock) (nodes : Table PublicKey NodeInfo) (s : LoopState γ) :
    List Activity → LoopState γ → Prop where
  | stopped {now : SystemTime} {source : PublicKey} {p : Producer γ}
      (hnow : clock.idle s.now now)
      (hpop : s.producer.popEvent nodes now = .stopped source p) :
      ClockedRound clock nodes s [.stopped source] ⟨p, now⟩
  | skipped {now : SystemTime} {source : PublicKey} {delay : Duration} {p : Producer γ}
      (hnow : clock.idle s.now now)
      (hpop : s.producer.popEvent nodes now = .skipped source delay p) :
      ClockedRound clock nodes s [.scheduled source delay] ⟨p, now⟩
  | dispatched {now woken time : SystemTime} {event : PaymentEvent} {wait delay : Duration}
      {p p' : Producer γ} (hnow : clock.idle s.now now)
      (hpop : s.producer.popEvent nodes now = .sleeping event wait p)
      (hwoken : clock.sleep now wait woken)
      (hgenerate : p.generatePayment event.source woken = .ok (delay, p'))
      (htime : clock.idle woken time) :
      ClockedRound clock nodes s [.scheduled event.source delay, .dispatched ⟨event, time⟩]
        ⟨p', time⟩

/-- On the exact clock a round is an iteration of the loop. -/
theorem iteration_of_clockedRound {s s' : LoopState γ} {events : List Activity}
    (h : ClockedRound .exact nodes s events s') :
    LoopState.iteration nodes s = .next events s' := by
  cases h with
  | stopped hnow hpop =>
    cases hnow
    rw [LoopState.iteration, hpop]
  | skipped hnow hpop =>
    cases hnow
    rw [LoopState.iteration, hpop]
  | dispatched hnow hpop hwoken hgenerate htime =>
    cases hnow
    cases hwoken
    cases htime
    rw [LoopState.iteration, hpop]
    simp only [LoopState.wake, hgenerate]

/-- On a clock whose sleeps end late, each round has a lateness of its own. -/
theorem ClockedRound.exists_lateBy {bound : Duration} {s s' : LoopState γ} {events : List Activity}
    (hpos : 0 < bound) (h : ClockedRound (.late bound) nodes s events s') :
    ∃ late < bound, ClockedRound (.lateBy late) nodes s events s' := by
  cases h with
  | stopped hnow hpop => exact ⟨0, hpos, .stopped hnow hpop⟩
  | skipped hnow hpop => exact ⟨0, hpos, .skipped hnow hpop⟩
  | dispatched hnow hpop hwoken hgenerate htime =>
    obtain ⟨late, hlate, hwoken⟩ := hwoken
    exact ⟨late, hlate, .dispatched hnow hpop hwoken hgenerate htime⟩

theorem ClockedRound.late_of_lateBy {bound late : Duration} {s s' : LoopState γ}
    {events : List Activity} (hlate : late < bound)
    (h : ClockedRound (.lateBy late) nodes s events s') :
    ClockedRound (.late bound) nodes s events s' := by
  cases h with
  | stopped hnow hpop => exact .stopped hnow hpop
  | skipped hnow hpop => exact .skipped hnow hpop
  | dispatched hnow hpop hwoken hgenerate htime =>
    exact .dispatched hnow hpop ⟨late, hlate, hwoken⟩ hgenerate htime

/-- The loop can end in `s`: nothing is queued, or the popped event or the next one of its source
fails. -/
inductive ClockedReturn (clock : Clock) (nodes : Table PublicKey NodeInfo) (s : LoopState γ) :
    Prop where
  | finished {now : SystemTime} (hnow : clock.idle s.now now)
      (hpop : s.producer.popEvent nodes now = .finished) : ClockedReturn clock nodes s
  | failed {now : SystemTime} {e : SimulationError} (hnow : clock.idle s.now now)
      (hpop : s.producer.popEvent nodes now = .failed e) : ClockedReturn clock nodes s
  | notGenerated {now woken : SystemTime} {event : PaymentEvent} {wait : Duration}
      {p : Producer γ} {e : SimulationError} (hnow : clock.idle s.now now)
      (hpop : s.producer.popEvent nodes now = .sleeping event wait p)
      (hwoken : clock.sleep now wait woken)
      (hgenerate : p.generatePayment event.source woken = .error e) : ClockedReturn clock nodes s

theorem returned_of_clockedReturn {s : LoopState γ} (h : ClockedReturn .exact nodes s) :
    ∃ result, LoopState.iteration nodes s = .returned result := by
  cases h with
  | finished hnow hpop =>
    cases hnow
    exact ⟨.ok (), by rw [LoopState.iteration, hpop]⟩
  | @failed now e hnow hpop =>
    cases hnow
    exact ⟨.error e, by rw [LoopState.iteration, hpop]⟩
  | @notGenerated now woken event wait p e hnow hpop hwoken hgenerate =>
    cases hnow
    cases hwoken
    refine ⟨.error e, ?_⟩
    rw [LoopState.iteration, hpop]
    simp only [LoopState.wake, hgenerate]

/-! ## Rounds without their times -/

/-- What a round does to the producer, at whatever times. -/
inductive UntimedRound (p : Producer γ) : List Activity → Producer γ → Prop where
  | stopped {event : PaymentEvent} {rest : EventHeap} {tracker : ExecutorPaymentTracker γ}
      (hpop : p.heap.pop = some (event, rest))
      (htracker : p.paymentsTracker.lookup event.source = some tracker)
      (hmet : tracker.executor.count = some tracker.paymentsCompleted) :
      UntimedRound p [.stopped event.source] (p.withHeap rest)
  | skipped {event : PaymentEvent} {rest : EventHeap} {tracker : ExecutorPaymentTracker γ}
      {base : SystemTime} {delay : Duration} {q : Producer γ}
      (hpop : p.heap.pop = some (event, rest))
      (htracker : p.paymentsTracker.lookup event.source = some tracker)
      (hunmet : tracker.executor.count ≠ some tracker.paymentsCompleted)
      (hamount : event.amount = 0)
      (hgenerate : (p.withHeap rest).generatePayment event.source base = .ok (delay, q)) :
      UntimedRound p [.scheduled event.source delay] q
  | dispatched {event : PaymentEvent} {rest : EventHeap} {tracker : ExecutorPaymentTracker γ}
      {base time : SystemTime} {delay : Duration} {q : Producer γ}
      (hpop : p.heap.pop = some (event, rest))
      (htracker : p.paymentsTracker.lookup event.source = some tracker)
      (hunmet : tracker.executor.count ≠ some tracker.paymentsCompleted)
      (hamount : event.amount ≠ 0)
      (hgenerate : ((p.withHeap rest).complete event.source tracker).generatePayment event.source
        base = .ok (delay, q)) :
      UntimedRound p [.scheduled event.source delay, .dispatched ⟨event, time⟩] q

theorem ClockedRound.untimed {s s' : LoopState γ} {events : List Activity}
    (h : ClockedRound clock nodes s events s') : UntimedRound s.producer events s'.producer := by
  cases h with
  | @stopped now source p hnow hpop =>
    have hpops := s.producer.pops_popEvent nodes now
    rw [hpop] at hpops
    cases hpops with
    | stopped hheap htracker hmet => exact .stopped hheap htracker hmet
  | @skipped now source delay p hnow hpop =>
    have hpops := s.producer.pops_popEvent nodes now
    rw [hpop] at hpops
    cases hpops with
    | skipped hheap htracker hunmet hamount hgenerate =>
      exact .skipped hheap htracker hunmet hamount hgenerate
  | @dispatched now woken time event wait delay p q hnow hpop hwoken hgenerate htime =>
    have hpops := s.producer.pops_popEvent nodes now
    rw [hpop] at hpops
    cases hpops with
    | sleeping hheap htracker hunmet hnode hamount =>
      exact .dispatched hheap htracker hunmet hamount hgenerate

/-- A round keeps one event for each source. -/
theorem UntimedRound.single {p q : Producer γ} {events : List Activity}
    (hround : UntimedRound p events q) (h : p.Single) : q.Single := by
  cases hround with
  | stopped hpop => exact (h.pop hpop).1
  | skipped hpop _ _ _ hgenerate => exact (h.pop hpop).1.generatePayment (h.pop hpop).2 hgenerate
  | @dispatched event rest tracker base time delay q hpop _ _ _ hgenerate =>
    have hcompleted : ((p.withHeap rest).complete event.source tracker).Single := (h.pop hpop).1
    exact hcompleted.generatePayment (h.pop hpop).2 hgenerate

theorem Producer.Single.sleeping {p q : Producer γ} {now : SystemTime} {event : PaymentEvent}
    {wait : Duration} (h : p.Single) (hpop : p.popEvent nodes now = .sleeping event wait q) :
    q.Single := by
  have hpops := p.pops_popEvent nodes now
  rw [hpop] at hpops
  cases hpops with
  | sleeping hheap => exact (h.pop hheap).1

/-! ## Runs -/

/-- A run of rounds, with the log that it keeps. -/
def ClockedRun (clock : Clock) (nodes : Table PublicKey NodeInfo) (s₀ : LoopState γ)
    (log : List Activity) (s : LoopState γ) : Prop :=
  ∃ rounds, Steps (ClockedRound clock nodes) s₀ rounds s ∧ log = rounds.flatten

namespace ClockedRun

variable {s₀ s s' : LoopState γ} {log events : List Activity}

theorem refl (s₀ : LoopState γ) : ClockedRun clock nodes s₀ [] s₀ := ⟨[], .refl, rfl⟩

theorem tail (h : ClockedRun clock nodes s₀ log s) (hround : ClockedRound clock nodes s events s') :
    ClockedRun clock nodes s₀ (log ++ events) s' := by
  obtain ⟨rounds, hrun, rfl⟩ := h
  exact ⟨rounds ++ [events], hrun.tail hround, by simp⟩

/-- On any clock, no source ever has two events queued. -/
theorem single (h : ClockedRun clock nodes s₀ log s) (hsingle : s₀.producer.Single) :
    s.producer.Single := by
  obtain ⟨rounds, hrun, -⟩ := h
  exact hrun.invariant (I := fun _ s => s.producer.Single) hsingle fun _ _ _ _ h hround =>
    hround.untimed.single h

/-- On the exact clock the run is one of the loop. -/
theorem loopRun (h : ClockedRun .exact nodes s₀ log s) :
    (LoopState.iteration nodes).Run s₀ log s := by
  obtain ⟨rounds, hrun, rfl⟩ := h
  refine hrun.invariant (I := fun rounds s =>
    (LoopState.iteration nodes).Run s₀ rounds.flatten s) .start ?_
  intro rounds s events s' hrun hround
  simpa using hrun.round (iteration_of_clockedRound hround)

end ClockedRun
end SimLn
