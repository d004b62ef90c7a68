import SimLn.Results
import SimLn.Scheduler.Clocked

/-!
# SimLn — the tasks of a simulation

A running simulation is a producer of payments, a `send_payment` task for each payment, a results
producer that spawns a tracker for each payment sent, a results consumer that records the results,
the task that logs a summary, the task that ends the simulation after its total time, and the
shutdown signal. Two channels of one slot connect them: the output channel leads from the
`send_payment` tasks to the results producer, the results channel from there and from the trackers
to the consumer.

`SimulationStep` is one step of one task, up to the next point at which another task can intervene.
A `select!` that is biased towards the shutdown listener is two steps: the listener is polled, and if
it has not fired, the other branch is. In between the signal can be raised.

Payments are numbered in the order of their dispatch. The numbers stand for the tasks that handle
them, which the source does not name.
-/

namespace SimLn

open Lib

/-- Where the producer is in the loop of `produce_payment_events`. -/
inductive ProducerPhase (γ : Type) where
  /-- At the select of the loop. -/
  | looping (p : Producer γ)
  | polled (p : Producer γ)
  /-- At the select around the sleep. -/
  | sleeping (event : PaymentEvent) (wait : Duration) (p : Producer γ)
  | waking (event : PaymentEvent) (wait : Duration) (p : Producer γ)
  /-- The function has returned; the shutdown trigger comes next. -/
  | returned
  | finished

/-- Whether the loop has been left. The output sender is dropped then. -/
def ProducerPhase.ended {γ : Type} : ProducerPhase γ → Bool
  | .returned | .finished => true
  | _ => false

inductive SendPhase where
  /-- The node has been asked to send the payment. -/
  | calling (node : NodeInfo) (dispatch : Dispatch)
  | sending (output : SimulationOutput)

/-- Where the results producer is. On return it drops its ends of both channels, and an error raises
the shutdown signal next. -/
inductive ResultsProducerPhase where
  | receiving
  | reporting (n : Nat) (payment : Payment) (result : PaymentResult)
  | polled (n : Nat) (payment : Payment) (result : PaymentResult)
  | returned (failed : Bool)
  | finished

namespace ResultsProducerPhase

def ended : ResultsProducerPhase → Bool
  | .returned _ | .finished => true
  | _ => false

/-- The payment that the results producer handles. -/
def payments : ResultsProducerPhase → List Nat
  | .reporting n _ _ | .polled n _ _ => [n]
  | _ => []

end ResultsProducerPhase

inductive TrackerPhase where
  /-- The node has been asked to track the payment. -/
  | tracking (payment : Payment)
  | reporting (payment : Payment) (result : PaymentResult)
  | polled (payment : Payment) (result : PaymentResult)

/-- Where the results consumer is. -/
inductive ConsumerPhase where
  /-- The results file has not been created yet. -/
  | starting (writeResults : Option UInt32)
  | receiving
  | polled
  | holding (n : Nat) (payment : Payment) (result : PaymentResult)
  /-- The loop has been left; a last batch is still to be written. -/
  | closing
  | returned (failed : Bool)
  | finished

namespace ConsumerPhase

/-- Whether the receiver of the results channel has been dropped. -/
def ended : ConsumerPhase → Bool
  | .returned _ | .finished => true
  | _ => false

/-- Whether no further result will be received. -/
def left : ConsumerPhase → Bool
  | .closing | .returned _ | .finished => true
  | _ => false

def payments : ConsumerPhase → List Nat
  | .holding n _ _ => [n]
  | _ => []

end ConsumerPhase

/-- The tasks of a running simulation, what is in the channels, and what the tasks share. -/
structure Simulation (γ : Type) where
  shutdown : Bool
  /-- The last reading of the clock by the producer. -/
  now : SystemTime
  producer : ProducerPhase γ
  dispatched : List Dispatch
  sends : List (Nat × SendPhase)
  /-- How many `send_payment` tasks have failed and will raise the shutdown signal next. -/
  failedSends : Nat
  output : Option (Nat × SimulationOutput)
  resultsProducer : ResultsProducerPhase
  trackers : List (Nat × TrackerPhase)
  results : Option (Nat × Record)
  consumer : ConsumerPhase
  logger : PaymentResultLogger
  writer : Option BatchedWriter
  resultsLogger : Bool
  timeout : Bool

/-- The payments that some task or channel still holds. -/
def Simulation.underWay {γ : Type} (s : Simulation γ) : List Nat :=
  s.sends.map Prod.fst ++ s.output.toList.map Prod.fst ++ s.resultsProducer.payments
    ++ s.trackers.map Prod.fst ++ s.results.toList.map Prod.fst ++ s.consumer.payments

/-- What can be observed of a step. -/
inductive TaskEvent where
  | internal
  | dispatched (dispatch : Dispatch)
  /-- A node's call to send payment `n` has returned. -/
  | sent (n : Nat) (outcome : Except LightningError PaymentHash)
  /-- A node's call to track payment `n` has returned. -/
  | tracked (n : Nat) (outcome : Except LightningError PaymentResult)
  | recorded (n : Nat) (record : Record)
  /-- A task that handles results leaves on the shutdown signal, with these payments under way. -/
  | interrupted (underWay : List Nat)
  /-- The source of payment `n` is not a node of the simulation. -/
  | missingNode (n : Nat)
  /-- Payment `n` is sent to a channel whose receiver has been dropped. -/
  | closed (n : Nat)
  | writerFailed
  /-- The simulation's total time is over. -/
  | timedOut
  /-- The signal is raised from outside the simulation. -/
  | shutdown
  deriving DecidableEq

variable {γ : Type}

/-! ## The steps of each task -/

/-- What the producer does next after popping an event. -/
def PoppedEvent.phase : PoppedEvent γ → ProducerPhase γ
  | .finished | .failed _ => .returned
  | .stopped _ p | .skipped _ _ p => .looping p
  | .sleeping event wait p => .sleeping event wait p

inductive ProducerStep (clock : Clock) (nodes : Table PublicKey NodeInfo) (s : Simulation γ) :
    TaskEvent → Simulation γ → Prop where
  | poll {p : Producer γ} (h : s.producer = .looping p) (hsignal : s.shutdown = false) :
      ProducerStep clock nodes s .internal { s with producer := .polled p }
  | leave {p : Producer γ} (h : s.producer = .looping p) (hsignal : s.shutdown = true) :
      ProducerStep clock nodes s .internal { s with producer := .returned }
  | pop {p : Producer γ} {now : SystemTime} (h : s.producer = .polled p)
      (hnow : clock.idle s.now now) :
      ProducerStep clock nodes s .internal
        { s with producer := (p.popEvent nodes now).phase, now }
  | pollSleep {event : PaymentEvent} {wait : Duration} {p : Producer γ}
      (h : s.producer = .sleeping event wait p) (hsignal : s.shutdown = false) :
      ProducerStep clock nodes s .internal { s with producer := .waking event wait p }
  | leaveSleep {event : PaymentEvent} {wait : Duration} {p : Producer γ}
      (h : s.producer = .sleeping event wait p) (hsignal : s.shutdown = true) :
      ProducerStep clock nodes s .internal { s with producer := .returned }
  /-- The sleep is not over yet. -/
  | pending {event : PaymentEvent} {wait : Duration} {p : Producer γ}
      (h : s.producer = .waking event wait p) :
      ProducerStep clock nodes s .internal { s with producer := .sleeping event wait p }
  | fail {event : PaymentEvent} {wait : Duration} {p : Producer γ} {now : SystemTime}
      {e : SimulationError} (h : s.producer = .waking event wait p)
      (hnow : clock.sleep s.now wait now)
      (hgenerate : p.generatePayment event.source now = .error e) :
      ProducerStep clock nodes s .internal { s with producer := .returned, now }
  /-- The next event is generated, and a task is spawned that sends the payment. -/
  | dispatch {event : PaymentEvent} {wait delay : Duration} {p p' : Producer γ}
      {now time : SystemTime} {node : NodeInfo} (h : s.producer = .waking event wait p)
      (hnow : clock.sleep s.now wait now)
      (hgenerate : p.generatePayment event.source now = .ok (delay, p'))
      (htime : clock.idle now time) (hnode : nodes.lookup event.source = some node) :
      ProducerStep clock nodes s (.dispatched ⟨event, time⟩)
        { s with
          producer := .looping p'
          now := time
          dispatched := s.dispatched ++ [⟨event, time⟩]
          sends := s.sends ++ [(s.dispatched.length, .calling node ⟨event, time⟩)] }
  | trigger (h : s.producer = .returned) :
      ProducerStep clock nodes s .internal { s with producer := .finished, shutdown := true }

inductive SendStep (s : Simulation γ) : TaskEvent → Simulation γ → Prop where
  | sent {before after : List (Nat × SendPhase)} {n : Nat} {node : NodeInfo} {dispatch : Dispatch}
      {outcome : Except LightningError PaymentHash} {output : SimulationOutput}
      (h : s.sends = before ++ (n, .calling node dispatch) :: after)
      (houtput : sendPayment node dispatch outcome = .ok output) :
      SendStep s (.sent n outcome)
        { s with sends := before ++ (n, .sending output) :: after }
  | fail {before after : List (Nat × SendPhase)} {n : Nat} {node : NodeInfo} {dispatch : Dispatch}
      {outcome : Except LightningError PaymentHash} {e : SimulationError}
      (h : s.sends = before ++ (n, .calling node dispatch) :: after)
      (houtput : sendPayment node dispatch outcome = .error e) :
      SendStep s (.sent n outcome)
        { s with sends := before ++ after, failedSends := s.failedSends + 1 }
  | send {before after : List (Nat × SendPhase)} {n : Nat} {output : SimulationOutput}
      (h : s.sends = before ++ (n, .sending output) :: after) (hfree : s.output = none)
      (hopen : s.resultsProducer.ended = false) :
      SendStep s .internal { s with sends := before ++ after, output := some (n, output) }
  | closed {before after : List (Nat × SendPhase)} {n : Nat} {output : SimulationOutput}
      (h : s.sends = before ++ (n, .sending output) :: after)
      (hclosed : s.resultsProducer.ended = true) :
      SendStep s (.closed n)
        { s with sends := before ++ after, failedSends := s.failedSends + 1 }
  | trigger {k : Nat} (h : s.failedSends = k + 1) :
      SendStep s .internal { s with failedSends := k, shutdown := true }

inductive ResultsProducerStep (nodes : Table PublicKey NodeInfo) (s : Simulation γ) :
    TaskEvent → Simulation γ → Prop where
  | track {n : Nat} {payment : Payment} (h : s.resultsProducer = .receiving)
      (houtput : s.output = some (n, .sendPaymentSuccess payment)) (hnode : payment.source ∈ nodes) :
      ResultsProducerStep nodes s .internal
        { s with output := none, trackers := s.trackers ++ [(n, .tracking payment)] }
  | missingNode {n : Nat} {payment : Payment} (h : s.resultsProducer = .receiving)
      (houtput : s.output = some (n, .sendPaymentSuccess payment)) (hnode : payment.source ∉ nodes) :
      ResultsProducerStep nodes s (.missingNode n)
        { s with output := none, resultsProducer := .returned true }
  | report {n : Nat} {payment : Payment} {result : PaymentResult}
      (h : s.resultsProducer = .receiving)
      (houtput : s.output = some (n, .sendPaymentFailure payment result)) :
      ResultsProducerStep nodes s .internal
        { s with output := none, resultsProducer := .reporting n payment result }
  /-- All senders of the output channel have been dropped. -/
  | finish (h : s.resultsProducer = .receiving) (houtput : s.output = none)
      (hproducer : s.producer.ended = true) (hsends : s.sends = []) :
      ResultsProducerStep nodes s .internal { s with resultsProducer := .returned false }
  | leave {n : Nat} {payment : Payment} {result : PaymentResult}
      (h : s.resultsProducer = .reporting n payment result) (hsignal : s.shutdown = true) :
      ResultsProducerStep nodes s (.interrupted s.underWay)
        { s with output := none, resultsProducer := .returned false }
  | poll {n : Nat} {payment : Payment} {result : PaymentResult}
      (h : s.resultsProducer = .reporting n payment result) (hsignal : s.shutdown = false) :
      ResultsProducerStep nodes s .internal
        { s with resultsProducer := .polled n payment result }
  | send {n : Nat} {payment : Payment} {result : PaymentResult}
      (h : s.resultsProducer = .polled n payment result) (hfree : s.results = none)
      (hopen : s.consumer.ended = false) :
      ResultsProducerStep nodes s .internal
        { s with resultsProducer := .receiving, results := some (n, payment, result) }
  | closed {n : Nat} {payment : Payment} {result : PaymentResult}
      (h : s.resultsProducer = .polled n payment result) (hclosed : s.consumer.ended = true) :
      ResultsProducerStep nodes s (.closed n)
        { s with output := none, resultsProducer := .returned true }
  | pending {n : Nat} {payment : Payment} {result : PaymentResult}
      (h : s.resultsProducer = .polled n payment result) (hfull : s.results.isSome) :
      ResultsProducerStep nodes s .internal
        { s with resultsProducer := .reporting n payment result }
  | exit {failed : Bool} (h : s.resultsProducer = .returned failed) :
      ResultsProducerStep nodes s .internal
        { s with resultsProducer := .finished, shutdown := s.shutdown || failed }

inductive TrackerStep (s : Simulation γ) : TaskEvent → Simulation γ → Prop where
  | tracked {before after : List (Nat × TrackerPhase)} {n : Nat} {payment : Payment}
      {outcome : Except LightningError PaymentResult}
      (h : s.trackers = before ++ (n, .tracking payment) :: after) :
      TrackerStep s (.tracked n outcome)
        { s with trackers := before
            ++ (n, .reporting payment (trackPaymentResult payment outcome)) :: after }
  /-- The node stops tracking, with an error, because its shutdown listener has fired. -/
  | abandoned {before after : List (Nat × TrackerPhase)} {n : Nat} {payment : Payment}
      {e : LightningError} (h : s.trackers = before ++ (n, .tracking payment) :: after)
      (hsignal : s.shutdown = true) :
      TrackerStep s .internal
        { s with trackers := before
            ++ (n, .reporting payment (trackPaymentResult payment (.error e))) :: after }
  | leave {before after : List (Nat × TrackerPhase)} {n : Nat} {payment : Payment}
      {result : PaymentResult}
      (h : s.trackers = before ++ (n, .reporting payment result) :: after)
      (hsignal : s.shutdown = true) :
      TrackerStep s (.interrupted s.underWay) { s with trackers := before ++ after }
  | poll {before after : List (Nat × TrackerPhase)} {n : Nat} {payment : Payment}
      {result : PaymentResult}
      (h : s.trackers = before ++ (n, .reporting payment result) :: after)
      (hsignal : s.shutdown = false) :
      TrackerStep s .internal
        { s with trackers := before ++ (n, .polled payment result) :: after }
  | send {before after : List (Nat × TrackerPhase)} {n : Nat} {payment : Payment}
      {result : PaymentResult} (h : s.trackers = before ++ (n, .polled payment result) :: after)
      (hfree : s.results = none) (hopen : s.consumer.ended = false) :
      TrackerStep s .internal
        { s with trackers := before ++ after, results := some (n, payment, result) }
  | closed {before after : List (Nat × TrackerPhase)} {n : Nat} {payment : Payment}
      {result : PaymentResult} (h : s.trackers = before ++ (n, .polled payment result) :: after)
      (hclosed : s.consumer.ended = true) :
      TrackerStep s (.closed n) { s with trackers := before ++ after }
  | pending {before after : List (Nat × TrackerPhase)} {n : Nat} {payment : Payment}
      {result : PaymentResult} (h : s.trackers = before ++ (n, .polled payment result) :: after)
      (hfull : s.results.isSome) :
      TrackerStep s .internal
        { s with trackers := before ++ (n, .reporting payment result) :: after }

/-- The writer of the results file, if results are written. -/
def createWriter (csv : Csv) : Option UInt32 → Except WriterError (Option BatchedWriter)
  | none => .ok none
  | some batchSize => (BatchedWriter.new csv batchSize).map some

/-- Queues a record with the writer, if there is one. -/
def queueRecord (csv : Csv) (writer : Option BatchedWriter) (record : Record) :
    Except WriterError Unit × Option BatchedWriter :=
  match writer with
  | none => (.ok (), none)
  | some w => ((w.queue csv record).1, some (w.queue csv record).2)

/-- `writer.map_or(Ok(()), |mut w| w.write(true))`. -/
def closeWriter (csv : Csv) (writer : Option BatchedWriter) :
    Except WriterError Unit × Option BatchedWriter :=
  match writer with
  | none => (.ok (), none)
  | some w => ((w.write csv true).1, some (w.write csv true).2)

inductive ConsumerStep (csv : Csv) (s : Simulation γ) : TaskEvent → Simulation γ → Prop where
  | start {writeResults : Option UInt32} {writer : Option BatchedWriter}
      (h : s.consumer = .starting writeResults) (hwriter : createWriter csv writeResults = .ok writer) :
      ConsumerStep csv s .internal { s with consumer := .receiving, writer }
  | startFailed {writeResults : Option UInt32} {e : WriterError}
      (h : s.consumer = .starting writeResults) (hwriter : createWriter csv writeResults = .error e) :
      ConsumerStep csv s .writerFailed { s with consumer := .returned true, results := none }
  | leave (h : s.consumer = .receiving) (hsignal : s.shutdown = true) :
      ConsumerStep csv s (.interrupted s.underWay) { s with consumer := .closing }
  | poll (h : s.consumer = .receiving) (hsignal : s.shutdown = false) :
      ConsumerStep csv s .internal { s with consumer := .polled }
  | receive {n : Nat} {payment : Payment} {result : PaymentResult} (h : s.consumer = .polled)
      (hresults : s.results = some (n, payment, result)) :
      ConsumerStep csv s .internal
        { s with consumer := .holding n payment result, results := none }
  /-- All senders of the results channel have been dropped. -/
  | finish (h : s.consumer = .polled) (hresults : s.results = none)
      (hproducer : s.resultsProducer.ended = true) (htrackers : s.trackers = []) :
      ConsumerStep csv s .internal { s with consumer := .closing }
  | pending (h : s.consumer = .polled) (hresults : s.results = none) :
      ConsumerStep csv s .internal { s with consumer := .receiving }
  | record {n : Nat} {payment : Payment} {result : PaymentResult} {writer : Option BatchedWriter}
      (h : s.consumer = .holding n payment result)
      (hqueue : queueRecord csv s.writer (payment, result) = (.ok (), writer)) :
      ConsumerStep csv s (.recorded n (payment, result))
        { s with
          consumer := .receiving
          logger := s.logger.reportResult payment result
          writer }
  | recordFailed {n : Nat} {payment : Payment} {result : PaymentResult} {e : WriterError}
      {writer : Option BatchedWriter} (h : s.consumer = .holding n payment result)
      (hqueue : queueRecord csv s.writer (payment, result) = (.error e, writer)) :
      ConsumerStep csv s .writerFailed
        { s with
          consumer := .returned true
          logger := s.logger.reportResult payment result
          writer
          results := none }
  | close {writer : Option BatchedWriter} (h : s.consumer = .closing)
      (hclose : closeWriter csv s.writer = (.ok (), writer)) :
      ConsumerStep csv s .internal { s with consumer := .returned false, writer, results := none }
  | closeFailed {e : WriterError} {writer : Option BatchedWriter} (h : s.consumer = .closing)
      (hclose : closeWriter csv s.writer = (.error e, writer)) :
      ConsumerStep csv s .writerFailed
        { s with consumer := .returned true, writer, results := none }
  | exit {failed : Bool} (h : s.consumer = .returned failed) :
      ConsumerStep csv s .internal
        { s with consumer := .finished, shutdown := s.shutdown || failed }

/-- The tasks that only log a summary or wait for the total time, and the signal from outside. -/
inductive BackgroundStep (s : Simulation γ) : TaskEvent → Simulation γ → Prop where
  | log (h : s.resultsLogger = true) (hsignal : s.shutdown = false) :
      BackgroundStep s .internal s
  | leaveLogger (h : s.resultsLogger = true) (hsignal : s.shutdown = true) :
      BackgroundStep s .internal { s with resultsLogger := false }
  | timedOut (h : s.timeout = true) :
      BackgroundStep s .timedOut { s with timeout := false, shutdown := true }
  | leaveTimeout (h : s.timeout = true) (hsignal : s.shutdown = true) :
      BackgroundStep s .internal { s with timeout := false }
  | shutdown : BackgroundStep s .shutdown { s with shutdown := true }

/-- One step of one task. -/
inductive SimulationStep (clock : Clock) (csv : Csv) (nodes : Table PublicKey NodeInfo)
    (s : Simulation γ) (e : TaskEvent) (s' : Simulation γ) : Prop where
  | producer (h : ProducerStep clock nodes s e s')
  | send (h : SendStep s e s')
  | resultsProducer (h : ResultsProducerStep nodes s e s')
  | tracker (h : TrackerStep s e s')
  | consumer (h : ConsumerStep csv s e s')
  | background (h : BackgroundStep s e s')

/-- The tasks as they are started, with a producer that has been set up. `timeout` says whether the
simulation has a total time. -/
def Simulation.start (p : Producer γ) (now : SystemTime) (writeResults : Option UInt32)
    (timeout : Bool) : Simulation γ :=
  { shutdown := false
    now
    producer := .looping p
    dispatched := []
    sends := []
    failedSends := 0
    output := none
    resultsProducer := .receiving
    trackers := []
    results := none
    consumer := .starting writeResults
    logger := .new
    writer := none
    resultsLogger := true
    timeout }

/-- All tasks have finished, which is when `run` returns. -/
structure Simulation.Done (s : Simulation γ) : Prop where
  producer : s.producer = .finished
  sends : s.sends = []
  failedSends : s.failedSends = 0
  resultsProducer : s.resultsProducer = .finished
  trackers : s.trackers = []
  consumer : s.consumer = .finished
  resultsLogger : s.resultsLogger = false
  timeout : s.timeout = false

/-- The steps of a simulation from its start. -/
abbrev SimulationRun (clock : Clock) (csv : Csv) (nodes : Table PublicKey NodeInfo)
    (start : Simulation γ) (trace : List TaskEvent) (s : Simulation γ) : Prop :=
  Steps (SimulationStep clock csv nodes) start trace s

end SimLn
