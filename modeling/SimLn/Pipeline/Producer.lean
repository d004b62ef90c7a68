import SimLn.Pipeline
import SimLn.Scheduler.Trackers

/-!
# SimLn — the producer among the other tasks

Whatever the other tasks of a simulation do, its producer runs its loop on the clock, and the
payments dispatched are those of the loop's log.
-/

namespace SimLn

open Lib

variable {γ : Type} {clock : Clock} {csv : Csv} {nodes : Table PublicKey NodeInfo}
  {s s' : Simulation γ} {e : TaskEvent} {trace : List TaskEvent} {start : LoopState γ}

/-- What the producer works on until it returns. -/
def ProducerPhase.producer : ProducerPhase γ → Option (Producer γ)
  | .looping p | .polled p | .sleeping _ _ p | .waking _ _ p => some p
  | .returned | .finished => none

/-- Where the producer is in the loop, after the rounds that have led to `r`. -/
def InLoop (clock : Clock) (nodes : Table PublicKey NodeInfo) (r : LoopState γ)
    (s : Simulation γ) : Prop :=
  match s.producer with
  | .looping p | .polled p => r = ⟨p, s.now⟩
  | .sleeping event wait p | .waking event wait p =>
    clock.idle r.now s.now ∧ r.producer.popEvent nodes s.now = .sleeping event wait p
  -- Either the signal has been raised, or the loop has ended by itself.
  | .returned => s.shutdown = true ∨ ClockedReturn clock nodes r
  | .finished => True

/-- The payments dispatched so far come from rounds of the loop from `start`. -/
def FollowsLoop (clock : Clock) (nodes : Table PublicKey NodeInfo) (start : LoopState γ)
    (s : Simulation γ) : Prop :=
  ∃ log r, ClockedRun clock nodes start log r ∧ dispatches log = s.dispatched ∧
    InLoop clock nodes r s

/-- A step of another task leaves the producer alone. -/
theorem SimulationStep.producer_or_frame (h : SimulationStep clock csv nodes s e s') :
    ProducerStep clock nodes s e s' ∨
      (s'.producer = s.producer ∧ s'.now = s.now ∧ s'.dispatched = s.dispatched ∧
        (s.shutdown = true → s'.shutdown = true)) := by
  cases h with
  | producer h => exact Or.inl h
  | send h =>
    refine Or.inr ?_
    cases h with
    | sent | fail | send | closed => exact ⟨rfl, rfl, rfl, id⟩
    | trigger => exact ⟨rfl, rfl, rfl, fun _ => rfl⟩
  | resultsProducer h =>
    refine Or.inr ?_
    cases h with
    | track | missingNode | report | finish | leave | poll | send | closed | pending =>
      exact ⟨rfl, rfl, rfl, id⟩
    | exit => exact ⟨rfl, rfl, rfl, fun hsignal => by rw [hsignal, Bool.true_or]⟩
  | tracker h =>
    refine Or.inr ?_
    cases h <;> exact ⟨rfl, rfl, rfl, id⟩
  | consumer h =>
    refine Or.inr ?_
    cases h with
    | start | startFailed | leave | poll | receive | finish | pending | record | recordFailed | close
      | closeFailed => exact ⟨rfl, rfl, rfl, id⟩
    | exit => exact ⟨rfl, rfl, rfl, fun hsignal => by rw [hsignal, Bool.true_or]⟩
  | background h =>
    refine Or.inr ?_
    cases h with
    | log | leaveLogger | leaveTimeout => exact ⟨rfl, rfl, rfl, id⟩
    | timedOut | shutdown => exact ⟨rfl, rfl, rfl, fun _ => rfl⟩

namespace FollowsLoop

/-- Popping an event ends the round, or leads to the sleep of this round or to the end of the
loop. -/
theorem pop (h : FollowsLoop clock nodes start s) {p : Producer γ} {now : SystemTime}
    (hphase : s.producer = .polled p) (hnow : clock.idle s.now now) :
    FollowsLoop clock nodes start { s with producer := (p.popEvent nodes now).phase, now } := by
  obtain ⟨log, r, hrun, hdispatched, hin⟩ := h
  rw [InLoop, hphase] at hin
  subst hin
  unfold FollowsLoop InLoop
  cases hpop : p.popEvent nodes now with
  | finished => exact ⟨log, _, hrun, hdispatched, Or.inr (.finished hnow hpop)⟩
  | failed e => exact ⟨log, _, hrun, hdispatched, Or.inr (.failed hnow hpop)⟩
  | stopped source q => exact ⟨_, _, hrun.tail (.stopped hnow hpop), by simpa using hdispatched, rfl⟩
  | skipped source delay q =>
    exact ⟨_, _, hrun.tail (.skipped hnow hpop), by simpa using hdispatched, rfl⟩
  | sleeping event wait q => exact ⟨log, _, hrun, hdispatched, hnow, hpop⟩

theorem producerStep (h : FollowsLoop clock nodes start s)
    (hstep : ProducerStep clock nodes s e s') : FollowsLoop clock nodes start s' := by
  cases hstep with
  | pop hphase hnow => exact h.pop hphase hnow
  | poll hphase | pollSleep hphase | pending hphase =>
    obtain ⟨log, r, hrun, hdispatched, hin⟩ := h
    rw [InLoop, hphase] at hin
    exact ⟨log, r, hrun, hdispatched, hin⟩
  | leave _ hsignal | leaveSleep _ hsignal =>
    obtain ⟨log, r, hrun, hdispatched, -⟩ := h
    exact ⟨log, r, hrun, hdispatched, Or.inl hsignal⟩
  | fail hphase hnow hgenerate =>
    obtain ⟨log, r, hrun, hdispatched, hin⟩ := h
    rw [InLoop, hphase] at hin
    exact ⟨log, r, hrun, hdispatched, Or.inr (.notGenerated hin.1 hin.2 hnow hgenerate)⟩
  | dispatch hphase hnow hgenerate htime =>
    obtain ⟨log, r, hrun, hdispatched, hin⟩ := h
    rw [InLoop, hphase] at hin
    exact ⟨_, _, hrun.tail (.dispatched hin.1 hin.2 hnow hgenerate htime),
      by simp [hdispatched], rfl⟩
  | trigger =>
    obtain ⟨log, r, hrun, hdispatched, -⟩ := h
    exact ⟨log, r, hrun, hdispatched, trivial⟩

theorem frame (h : FollowsLoop clock nodes start s) (hproducer : s'.producer = s.producer)
    (hnow : s'.now = s.now) (hdispatched : s'.dispatched = s.dispatched)
    (hsignal : s.shutdown = true → s'.shutdown = true) : FollowsLoop clock nodes start s' := by
  obtain ⟨log, r, hrun, hlog, hin⟩ := h
  refine ⟨log, r, hrun, hlog.trans hdispatched.symm, ?_⟩
  unfold InLoop at hin ⊢
  rw [hproducer, hnow]
  cases hphase : s.producer with
  | looping | polled | sleeping | waking | finished =>
    rw [hphase] at hin
    exact hin
  | returned =>
    rw [hphase] at hin
    exact hin.imp_left hsignal

end FollowsLoop

/-- In every run of a simulation the producer follows its loop. -/
theorem run_followsLoop {p : Producer γ} {now : SystemTime} {writeResults : Option UInt32}
    {timeout : Bool}
    (h : SimulationRun clock csv nodes (.start p now writeResults timeout) trace s) :
    FollowsLoop clock nodes ⟨p, now⟩ s := by
  refine h.invariant (I := fun _ s => FollowsLoop clock nodes ⟨p, now⟩ s)
    ⟨[], _, .refl _, rfl, rfl⟩ fun _ _ _ _ hfollows hstep => ?_
  rcases hstep.producer_or_frame with hproducer | ⟨hproducer, hnow, hdispatched, hsignal⟩
  · exact hfollows.producerStep hproducer
  · exact hfollows.frame hproducer hnow hdispatched hsignal

end SimLn
