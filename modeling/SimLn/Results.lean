import SimLn.Scheduler

/-!
# SimLn — payments sent and their results

What a `send_payment` task makes of a payment, what its tracker makes of the outcome, and the two
places that a result is recorded in: the totals of the `PaymentResultLogger` and, if results are
written, the file of a `BatchedWriter`. The csv writer under the latter is not part of this
repository: it holds records in a buffer, and when it spills them and whether a call fails are
choices of its own.
-/

namespace SimLn

structure Payment where
  source : PublicKey
  destination : PublicKey
  amountMsat : UInt64
  /-- Hash of the payment if it has been successfully dispatched. -/
  hash : Option PaymentHash
  dispatchTime : SystemTime
  deriving DecidableEq, Repr

/-- The output of a simulation event. -/
inductive SimulationOutput where
  /-- The payment has been dispatched, and its result has to be tracked. -/
  | sendPaymentSuccess (payment : Payment)
  /-- The payment could not be dispatched: this is its final result. -/
  | sendPaymentFailure (payment : Payment) (result : PaymentResult)
  deriving DecidableEq, Repr

/-- The payment that a `send_payment` task sends from `node`. -/
def Dispatch.payment (dispatch : Dispatch) (node : NodeInfo) (hash : Option PaymentHash) :
    Payment :=
  { source := node.pubkey
    destination := dispatch.event.destination.pubkey
    amountMsat := dispatch.event.amount
    hash
    dispatchTime := dispatch.time }

/-- What `send_payment` puts out once the node's call has returned `outcome`. A permanent error ends
the simulation. -/
def sendPayment (node : NodeInfo) (dispatch : Dispatch)
    (outcome : Except LightningError PaymentHash) : Except SimulationError SimulationOutput :=
  match outcome with
  | .ok hash => .ok (.sendPaymentSuccess (dispatch.payment node (some hash)))
  -- no output at all: the task fails, and the shutdown follows
  | .error (.permanentError s) => .error (.lightningError (.permanentError s))
  | .error _ => .ok (.sendPaymentFailure (dispatch.payment node none) .notDispatched)

/-- The result that `track_payment_result` reports once the node's call has returned `outcome`. -/
def trackPaymentResult (payment : Payment) (outcome : Except LightningError PaymentResult) :
    PaymentResult :=
  match payment.hash with
  | some _ =>
    match outcome with
    | .ok res => res
    | .error _ => .trackPaymentFailed
  | none => .notDispatched

/-! ## The summary -/

structure PaymentResultLogger where
  successPayment : UInt64
  failedPayment : UInt64
  totalSent : UInt64
  deriving DecidableEq, Repr

namespace PaymentResultLogger

def new : PaymentResultLogger := ⟨0, 0, 0⟩

def reportResult (self : PaymentResultLogger) (details : Payment) (result : PaymentResult) :
    PaymentResultLogger :=
  match result.paymentOutcome with
  | .success => { self with
      successPayment := self.successPayment + 1
      totalSent := self.totalSent + details.amountMsat }
  | _ => { self with
      failedPayment := self.failedPayment + 1
      totalSent := self.totalSent + details.amountMsat }

def totalAttempts (self : PaymentResultLogger) : UInt64 :=
  self.successPayment + self.failedPayment

theorem totalAttempts_reportResult (self : PaymentResultLogger) (details : Payment)
    (result : PaymentResult) :
    (self.reportResult details result).totalAttempts = self.totalAttempts + 1 := by
  unfold reportResult totalAttempts
  split
  · show self.successPayment + 1 + self.failedPayment = _
    rw [UInt64.add_assoc, UInt64.add_comm 1, ← UInt64.add_assoc]
  · show self.successPayment + (self.failedPayment + 1) = _
    rw [← UInt64.add_assoc]

end PaymentResultLogger

/-! ## The results file -/

abbrev Record := Payment × PaymentResult

inductive WriterError where
  | fileError
  | csvError (message : String)
  deriving DecidableEq, Repr

/-- The records in the file and those still in the writer's buffer. -/
structure CsvWriter where
  file : List Record
  buffer : List Record
  deriving DecidableEq, Repr

/-- The choices of the csv writer: the outcome of its calls, and how many of the buffered records it
spills to the file when it serializes another. -/
structure Csv where
  fromPath : Except WriterError Unit
  serialize : CsvWriter → Record → Except WriterError Unit
  spills : CsvWriter → Record → Nat
  flush : CsvWriter → Except WriterError Unit

namespace CsvWriter

/-- Moves the first `n` records of the buffer to the file. -/
def spill (self : CsvWriter) (n : Nat) : CsvWriter :=
  { file := self.file ++ self.buffer.take n, buffer := self.buffer.drop n }

/-- The record is added to the buffer, or nothing is. -/
def serialize (csv : Csv) (self : CsvWriter) (record : Record) :
    Except WriterError Unit × CsvWriter :=
  match csv.serialize self record with
  | .ok () => (.ok (), { self with buffer := self.buffer ++ [record] }.spill (csv.spills self record))
  | .error e => (.error e, self.spill (csv.spills self record))

def flush (csv : Csv) (self : CsvWriter) : Except WriterError Unit × CsvWriter :=
  match csv.flush self with
  | .ok () => (.ok (), { file := self.file ++ self.buffer, buffer := [] })
  | .error e => (.error e, self)

/-- All records that the writer has accepted, in order. -/
def accepted (self : CsvWriter) : List Record := self.file ++ self.buffer

@[simp] theorem accepted_spill (self : CsvWriter) (n : Nat) :
    (self.spill n).accepted = self.accepted := by
  simp [spill, accepted]

end CsvWriter

/-- Writes records in batches. -/
structure BatchedWriter where
  batchSize : UInt32
  counter : UInt32
  writer : CsvWriter
  deriving DecidableEq, Repr

namespace BatchedWriter

def new (csv : Csv) (batchSize : UInt32) : Except WriterError BatchedWriter :=
  if batchSize = 0 then .error .fileError
  else csv.fromPath.map fun () => { batchSize, counter := 0, writer := ⟨[], []⟩ }

/-- Flushes the batch if it is full or `force` is set. -/
def write (csv : Csv) (self : BatchedWriter) (force : Bool) :
    Except WriterError Unit × BatchedWriter :=
  if force ∨ self.batchSize = self.counter then
    let (res, writer) := self.writer.flush csv
    (res, { self with counter := 0, writer })
  else
    (.ok (), self)

/-- Adds a record to the batch. If it fails to serialize, what is in the batch is flushed, and an
error of that is only logged. -/
def queue (csv : Csv) (self : BatchedWriter) (record : Record) :
    Except WriterError Unit × BatchedWriter :=
  match self.writer.serialize csv record with
  | (.error e, writer) => (.error e, ({ self with writer }.write csv true).2)
  | (.ok (), writer) =>
    { self with counter := self.counter % self.batchSize + 1, writer }.write csv false

theorem accepted_write (csv : Csv) (self : BatchedWriter) (force : Bool) :
    (self.write csv force).2.writer.accepted = self.writer.accepted := by
  unfold write
  split
  · unfold CsvWriter.flush
    cases csv.flush self.writer with
    | error e => rfl
    | ok u =>
      show self.writer.file ++ self.writer.buffer ++ [] = _
      rw [List.append_nil]
      rfl
  · rfl

/-- After a forced write that succeeds, everything accepted is in the file. -/
theorem file_of_write {csv : Csv} {self self' : BatchedWriter}
    (h : self.write csv true = (.ok (), self')) : self'.writer.file = self.writer.accepted := by
  unfold write CsvWriter.flush at h
  rw [if_pos (Or.inl rfl)] at h
  cases hflush : csv.flush self.writer with
  | error e =>
    rw [hflush] at h
    cases h
  | ok u =>
    rw [hflush] at h
    obtain rfl := (Prod.mk.inj h).2
    rfl

/-- A record that is queued without an error has been accepted. -/
theorem accepted_queue {csv : Csv} {self self' : BatchedWriter} {record : Record}
    (h : self.queue csv record = (.ok (), self')) :
    self'.writer.accepted = self.writer.accepted ++ [record] := by
  unfold queue CsvWriter.serialize at h
  cases hserialize : csv.serialize self.writer record with
  | error e =>
    rw [hserialize] at h
    cases h
  | ok u =>
    rw [hserialize] at h
    have haccepted := congrArg (fun x => x.2.writer.accepted) h
    simp only [accepted_write, CsvWriter.accepted_spill] at haccepted
    rw [← haccepted]
    exact (List.append_assoc _ _ _).symm

end BatchedWriter
end SimLn
