import SimLn.Activity
import SimLn.Lib.Heap
import SimLn.Lib.Loop
import Mathlib.Data.Prod.Lex

/-!
# SimLn — scheduling payments

The producer of payments: a heap that holds the next payment of each activity and, by source node,
the executor of its activity with the number of payments it has completed. `setupPaymentEvents`
fills both; each round of the loop of `produce_payment_events` pops the earliest event, sleeps
until it is due, generates the source's next event and dispatches the payment.

A round is modelled in the two parts that the sleep separates, `popEvent` and `generatePayment`,
so that the loop can be run on any clock. `LoopState.iteration` joins them on a clock that
advances by exactly the durations slept.
-/

namespace SimLn

open Lib

structure PaymentEvent where
  source : PublicKey
  executionTime : SystemTime
  destination : NodeInfo
  amount : UInt64
  deriving DecidableEq, Repr

/-- Events are ordered by execution time, then by the source node's public key. -/
def PaymentEvent.key (event : PaymentEvent) : SystemTime ×ₗ PublicKey :=
  toLex (event.executionTime, event.source)

/-- The heap of upcoming payments. Which of two events with one key pops first is unspecified in
the code. -/
abbrev EventHeap := MinHeap PaymentEvent.key

structure ExecutorPaymentTracker (γ : Type) where
  executor : ExecutorKit γ
  paymentsCompleted : Nat

/-- What the producer of payments works on, with the state of the generators. -/
structure Producer (γ : Type) where
  heap : EventHeap
  paymentsTracker : Table PublicKey (ExecutorPaymentTracker γ)
  generators : γ

/-- A payment handed to a `send_payment` task, at the time on the simulation's clock. -/
structure Dispatch where
  event : PaymentEvent
  time : SystemTime
  deriving DecidableEq, Repr

/-- What the scheduler does: it schedules the next event of a source after a delay, discards the
event of a source whose payment count has been met, dispatches a payment. -/
inductive Activity where
  | scheduled (source : PublicKey) (delay : Duration)
  | stopped (source : PublicKey)
  | dispatched (payment : Dispatch)
  deriving DecidableEq, Repr

variable {γ : Type}

/-- The wait before the next payment; a start delay, if there is one, before the first. -/
def getPaymentDelay (callCount : Nat) (nodeGenerator : PaymentGenerator γ) (g : γ) :
    Except SimulationError (Duration × γ) :=
  if callCount ≠ 0 then
    (nodeGenerator.nextPaymentWait g).mapError .paymentGenerationError
  else
    match nodeGenerator.paymentStart with
    | some start => .ok (start, g)
    | none => (nodeGenerator.nextPaymentWait g).mapError .paymentGenerationError

def executorNotFound (source : PublicKey) : SimulationError :=
  .paymentGenerationError ⟨s!"executor {source} not found"⟩

def absoluteTimeOverflow : SimulationError :=
  .paymentGenerationError
    ⟨"Unable to generate absolute_time for next payment with error Overflow adding duration"⟩

namespace Producer

def withHeap (self : Producer γ) (heap : EventHeap) : Producer γ := { self with heap }

/-- Pushes the next event of a source, with the delay from `baseTime` that it was given. -/
def generatePayment (self : Producer γ) (pubkey : PublicKey) (baseTime : SystemTime) :
    Except SimulationError (Duration × Producer γ) :=
  match self.paymentsTracker.lookup pubkey with
  | none => .error (executorNotFound pubkey)
  | some tracker =>
    match getPaymentDelay tracker.paymentsCompleted tracker.executor.paymentGenerator
      self.generators with
    | .error e => .error e
    | .ok (waitTime, g) =>
      -- the wait is drawn before the destination, and both before the amount
      match baseTime.checkedAdd waitTime with
      | none => .error absoluteTimeOverflow
      | some absoluteTime =>
        match tracker.executor.networkGenerator.chooseDestination tracker.executor.source g with
        | .error e => .error (.destinationGenerationError e)
        | .ok ((destination, capacity), g) =>
          match tracker.executor.paymentGenerator.paymentAmount capacity g with
          | .error e => .error (.paymentGenerationError e)
          | .ok (amount, g) =>
            .ok (waitTime,
              { self with
                heap := self.heap.push
                  { source := pubkey, executionTime := absoluteTime, destination, amount }
                generators := g })

/-- One more payment of a tracked source is completed. -/
def complete (self : Producer γ) (source : PublicKey) (tracker : ExecutorPaymentTracker γ) :
    Producer γ :=
  { self with
    paymentsTracker := self.paymentsTracker.insert source
      { tracker with paymentsCompleted := tracker.paymentsCompleted + 1 } }

end Producer

/-- Tracks every executor and generates its first event, in the given order. -/
def setupExecutors (now : SystemTime) :
    List (ExecutorKit γ) → Producer γ → Except SimulationError (List Activity × Producer γ)
  | [], p => .ok ([], p)
  | executor :: rest, p =>
    let p := { p with paymentsTracker := p.paymentsTracker.insert executor.source ⟨executor, 0⟩ }
    match p.generatePayment executor.source now with
    | .error e => .error e
    | .ok (delay, p) =>
      match setupExecutors now rest p with
      | .error e => .error e
      | .ok (log, p) => .ok (.scheduled executor.source delay :: log, p)

/-- Sets up the producer, with the executors sorted by their source's key. -/
def setupPaymentEvents (executors : List (ExecutorKit γ)) (now : SystemTime) (g : γ) :
    Except SimulationError (List Activity × Producer γ) :=
  setupExecutors now (executors.insertionSort fun ex1 ex2 => ex1.source ≤ ex2.source)
    { heap := .empty, paymentsTracker := ∅, generators := g }

/-- What a round of the loop comes to before the producer sleeps. -/
inductive PoppedEvent (γ : Type) where
  /-- The heap is empty: the loop breaks. -/
  | finished
  | failed (e : SimulationError)
  /-- The event of a source that has met its count is dropped. -/
  | stopped (source : PublicKey) (p : Producer γ)
  /-- A payment of amount zero is skipped; the source's next event has been generated. -/
  | skipped (source : PublicKey) (delay : Duration) (p : Producer γ)
  /-- The payment is counted as completed, and the producer sleeps until it is due. -/
  | sleeping (event : PaymentEvent) (wait : Duration) (p : Producer γ)

/-- Pops the next event at time `now`. -/
def Producer.popEvent (nodes : Table PublicKey NodeInfo) (self : Producer γ) (now : SystemTime) :
    PoppedEvent γ :=
  match self.heap.pop with
  | none => .finished
  | some (event, heap) =>
    let self := self.withHeap heap
    match self.paymentsTracker.lookup event.source with
    | none => .failed (executorNotFound event.source)
    | some tracker =>
      -- checked when the event is popped, so that one event too many has been generated
      if tracker.executor.count = some tracker.paymentsCompleted then
        .stopped event.source self
      else if event.source ∉ nodes then
        .failed (.missingNodeError s!"Source node not found, {event.source}")
      else if event.amount = 0 then
        -- counted from now, and the payment is not counted as completed
        match self.generatePayment event.source now with
        | .error e => .failed e
        | .ok (delay, self) => .skipped event.source delay self
      else
        .sleeping event (waitTime event.executionTime now) (self.complete event.source tracker)

/-- The producer and the clock it sleeps on. -/
structure LoopState (γ : Type) where
  producer : Producer γ
  now : SystemTime

/-- After the sleep the source's next event is generated, and the payment is dispatched. -/
def LoopState.wake (p : Producer γ) (event : PaymentEvent) (now : SystemTime) :
    Iteration Activity (LoopState γ) (Except SimulationError Unit) :=
  match p.generatePayment event.source now with
  | .error e => .returned (.error e)
  | .ok (delay, p) =>
    .next [.scheduled event.source delay, .dispatched ⟨event, now⟩] { producer := p, now }

/-- One round of the loop, on a clock that advances by exactly the duration slept. -/
def LoopState.iteration (nodes : Table PublicKey NodeInfo) :
    Loop Activity (LoopState γ) (Except SimulationError Unit) := fun s =>
  match s.producer.popEvent nodes s.now with
  | .finished => .returned (.ok ())
  | .failed e => .returned (.error e)
  | .stopped source p => .next [.stopped source] { s with producer := p }
  | .skipped source delay p => .next [.scheduled source delay] { s with producer := p }
  | .sleeping event wait p => LoopState.wake p event (s.now + wait)

/-- The payments in a log, in the order of their dispatch. -/
def dispatches (log : List Activity) : List Dispatch :=
  log.filterMap fun
    | .dispatched payment => some payment
    | _ => none

/-- The payments of one source. -/
def dispatchesOf (source : PublicKey) (log : List Activity) : List Dispatch :=
  (dispatches log).filter (·.event.source = source)

/-- The delays that one source's events were scheduled with, in order. -/
def delaysOf (source : PublicKey) (log : List Activity) : List Duration :=
  log.filterMap fun
    | .scheduled s delay => if s = source then some delay else none
    | _ => none

end SimLn
