import SimLn.Pipeline.Delivery
import Mathlib.Data.List.Induction

/-!
# SimLn — the results file and the summary

The consumer reports each result that it receives to the logger and queues it with the batched
writer. What it receives, and when the shutdown signal or the end of the channel stops it, is up to
the other tasks: `ConsumerTurn` is a step of the consumer, or a step of the others that may do
anything but touch what the consumer alone writes to. Over such runs the logger has counted what has
been reported, the file and the buffer hold it, and fewer records than a batch are in the buffer.

The csv writer may spill its buffer early and may fail to serialize a record; flushing succeeds.
-/

namespace SimLn

open Lib

/-! ## Batches -/

namespace BatchedWriter

variable {csv : Csv} {w w' : BatchedWriter} {batchSize : UInt32} {record : Record}

/-- Less than a batch is waiting in the buffer. -/
structure Batched (batchSize : UInt32) (w : BatchedWriter) : Prop where
  size : w.batchSize = batchSize
  buffered : w.writer.buffer.length ≤ w.counter.toNat
  counter : w.counter.toNat < batchSize.toNat

/-- The buffer never reaches the batch size. -/
theorem Batched.lt (h : w.Batched batchSize) : w.writer.buffer.length < batchSize.toNat :=
  Nat.lt_of_le_of_lt h.buffered h.counter

/-- A new writer has written nothing and is within its batch. -/
theorem new_batched (h : BatchedWriter.new csv batchSize = .ok w) :
    w.Batched batchSize ∧ w.writer.accepted = [] := by
  unfold BatchedWriter.new at h
  by_cases hzero : batchSize = 0
  · rw [if_pos hzero] at h
    cases h
  · rw [if_neg hzero] at h
    cases hpath : csv.fromPath with
    | error e =>
      rw [hpath] at h
      cases h
    | ok u =>
      rw [hpath] at h
      cases h
      have hpos : 0 < batchSize.toNat :=
        Nat.pos_of_ne_zero fun h0 => hzero (UInt32.toNat_inj.mp h0)
      exact ⟨⟨rfl, Nat.le_refl 0, hpos⟩, rfl⟩

/-- The writer after a flush. -/
def flushed (w : BatchedWriter) : BatchedWriter :=
  { w with counter := 0, writer := { file := w.writer.accepted, buffer := [] } }

/-- With a file that takes every flush, a write flushes when forced or when the batch is full. -/
theorem write_of_flush (hflush : ∀ w, csv.flush w = .ok ()) (w : BatchedWriter) (force : Bool) :
    w.write csv force = (.ok (), if force ∨ w.batchSize = w.counter then w.flushed else w) := by
  unfold write
  split
  next hfull =>
    simp only [CsvWriter.flush, hflush, flushed, CsvWriter.accepted]
  next hfull => rfl

/-- A flush keeps the writer within its batch. -/
theorem Batched.flushed (h : w.Batched batchSize) : w.flushed.Batched batchSize :=
  ⟨h.size, Nat.le_refl 0, Nat.lt_of_le_of_lt (Nat.zero_le _) h.counter⟩

/-- Spilling into the file never lengthens the buffer. -/
theorem length_buffer_spill (writer : CsvWriter) (n : Nat) :
    (writer.spill n).buffer.length ≤ writer.buffer.length := by
  rw [CsvWriter.spill, List.length_drop]
  exact Nat.sub_le _ _

/-- The counter goes up by one: it has not wrapped around and is short of a full batch. -/
theorem Batched.toNat_next (h : w.Batched batchSize) :
    (w.counter % w.batchSize + 1).toNat = w.counter.toNat + 1 := by
  have hlt := batchSize.toNat_lt
  have hcounter := h.counter
  rw [UInt32.toNat_add, UInt32.toNat_mod, h.size, Nat.mod_eq_of_lt hcounter,
    show (1 : UInt32).toNat = 1 from rfl, Nat.mod_eq_of_lt (by omega)]

/-- Queueing a record without an error keeps less than a batch in the buffer: a full one is
flushed. -/
theorem Batched.queue (hflush : ∀ w, csv.flush w = .ok ()) (h : w.Batched batchSize)
    (hqueue : w.queue csv record = (.ok (), w')) : w'.Batched batchSize := by
  unfold BatchedWriter.queue CsvWriter.serialize at hqueue
  cases hserialize : csv.serialize w.writer record with
  | error e =>
    rw [hserialize] at hqueue
    cases hqueue
  | ok u =>
    rw [hserialize] at hqueue
    simp only [write_of_flush hflush, Bool.false_eq_true, false_or] at hqueue
    obtain ⟨-, rfl⟩ := Prod.mk.inj hqueue
    have hnext := h.toNat_next
    have hlt := h.counter
    split
    next hfull => exact ⟨h.size, Nat.le_refl 0, Nat.lt_of_le_of_lt (Nat.zero_le _) hlt⟩
    next hfull =>
      have hne : batchSize.toNat ≠ w.counter.toNat + 1 := by
        rw [← hnext, ← h.size]
        exact fun heq => hfull (UInt32.toNat_inj.mp heq)
      refine ⟨h.size, ?_, ?_⟩
      · refine (length_buffer_spill _ _).trans ?_
        show (w.writer.buffer ++ [record]).length ≤ (w.counter % w.batchSize + 1).toNat
        rw [hnext, List.length_append, List.length_singleton]
        exact Nat.succ_le_succ h.buffered
      · show (w.counter % w.batchSize + 1).toNat < batchSize.toNat
        omega

/-- A record that fails to serialize leaves all earlier ones in the file. -/
theorem queue_failed (hflush : ∀ w, csv.flush w = .ok ()) (h : w.Batched batchSize)
    {e : WriterError} (hqueue : w.queue csv record = (.error e, w')) :
    w'.Batched batchSize ∧ w'.writer.file = w.writer.accepted := by
  unfold BatchedWriter.queue CsvWriter.serialize at hqueue
  cases hserialize : csv.serialize w.writer record with
  | ok u =>
    rw [hserialize] at hqueue
    simp only [write_of_flush hflush] at hqueue
    cases hqueue
  | error err =>
    rw [hserialize] at hqueue
    simp only [write_of_flush hflush, true_or, if_true] at hqueue
    obtain ⟨-, rfl⟩ := Prod.mk.inj hqueue
    refine ⟨⟨h.size, Nat.le_refl 0, Nat.lt_of_le_of_lt (Nat.zero_le _) h.counter⟩, ?_⟩
    exact CsvWriter.accepted_spill _ _

end BatchedWriter

/-! ## The consumer among other tasks -/

/-- The record that the consumer has received and reports next. -/
def ConsumerPhase.held : ConsumerPhase → List Record
  | .holding _ payment result => [(payment, result)]
  | _ => []

/-- Whether the consumer is between creating the file and returning. -/
def ConsumerPhase.going : ConsumerPhase → Bool
  | .receiving | .polled | .holding _ _ _ | .closing => true
  | _ => false

variable {γ : Type} {csv : Csv} {s s' : Simulation γ} {batchSize : UInt32}

/-- A step of the consumer, with the records that it reports to the logger, or of the others: they may
send it any result and close its channel or raise the signal at any moment. -/
inductive ConsumerTurn (csv : Csv) (s : Simulation γ) : List Record → Simulation γ → Prop where
  | consumer {e : TaskEvent} {s' : Simulation γ} (h : ConsumerStep csv s e s') :
      ConsumerTurn csv s s.consumer.held s'
  | others {s' : Simulation γ} (hconsumer : s'.consumer = s.consumer)
      (hlogger : s'.logger = s.logger) (hwriter : s'.writer = s.writer) : ConsumerTurn csv s [] s'

/-- Whatever task takes a step, the results consumer has had one turn. -/
theorem SimulationStep.consumerTurn {clock : Clock} {nodes : Table PublicKey NodeInfo}
    {e : TaskEvent} (h : SimulationStep clock csv nodes s e s') :
    ∃ reported, ConsumerTurn csv s reported s' := by
  rcases h.consumer_or_frame with h | ⟨hconsumer, hlogger, hwriter, -⟩
  · exact ⟨_, .consumer h⟩
  · exact ⟨_, .others hconsumer hlogger hwriter⟩

/-- What the consumer does in a run of the simulation is such a run. -/
theorem exists_consumerTurns {clock : Clock} {nodes : Table PublicKey NodeInfo}
    {start : Simulation γ} {trace : List TaskEvent}
    (h : SimulationRun clock csv nodes start trace s) :
    ∃ turns, Steps (ConsumerTurn csv) start turns s := by
  induction h with
  | refl => exact ⟨[], .refl⟩
  | tail _ hstep ih =>
    obtain ⟨turns, hturns⟩ := ih
    obtain ⟨reported, hturn⟩ := hstep.consumerTurn
    exact ⟨turns ++ [reported], hturns.tail hturn⟩

/-- The summary of what has been reported. -/
def summary (reported : List Record) : PaymentResultLogger :=
  reported.foldl (fun logger record => logger.reportResult record.1 record.2) .new

/-- One more result adds its own share to the summary. -/
theorem summary_snoc (reported : List Record) (payment : Payment) (result : PaymentResult) :
    summary (reported ++ [(payment, result)]) = (summary reported).reportResult payment result := by
  rw [summary, List.foldl_append]
  rfl

/-- The counters wrap around just as the number of records does. -/
theorem totalAttempts_summary (reported : List Record) :
    (summary reported).totalAttempts = UInt64.ofNat reported.length := by
  induction reported using List.reverseRecOn with
  | nil => rfl
  | append_singleton reported record ih =>
    rw [summary_snoc, PaymentResultLogger.totalAttempts_reportResult, ih, List.length_append]
    exact (UInt64.ofNat_add _ _).symm

/-- What holds of the logger and the file once `reported` has been reported. -/
structure Filed (batchSize : UInt32) (reported : List Record) (s : Simulation γ) : Prop where
  logger : s.logger = summary reported
  starting : ∀ config, s.consumer = .starting config →
    config = some batchSize ∧ s.writer = none ∧ reported = []
  batched : ∀ w, s.writer = some w → w.Batched batchSize
  going : s.consumer.going = true → ∃ w, s.writer = some w ∧ w.writer.accepted = reported
  returned : s.consumer = .returned false → ∃ w, s.writer = some w ∧ w.writer.file = reported
  failed : s.consumer = .returned true → ∀ w, s.writer = some w →
    ∃ earlier record, reported = earlier ++ [record] ∧ w.writer.file = earlier

/-- A writer is created for the batch size that is configured. -/
theorem exists_of_createWriter {writer : Option BatchedWriter}
    (h : createWriter csv (some batchSize) = .ok writer) :
    ∃ w, BatchedWriter.new csv batchSize = .ok w ∧ writer = some w := by
  have hmap : (BatchedWriter.new csv batchSize).map some = .ok writer := h
  cases hnew : BatchedWriter.new csv batchSize with
  | error e =>
    rw [hnew] at hmap
    cases hmap
  | ok w =>
    rw [hnew] at hmap
    exact ⟨w, rfl, (Except.ok.inj hmap).symm⟩

namespace Filed

variable {reported : List Record}

/-- The phases in between are told apart by what they hold only. -/
theorem goOn (h : Filed batchSize reported s) (hgoing : s.consumer.going = true)
    (hgoing' : s'.consumer.going = true) (hlogger : s'.logger = s.logger)
    (hwriter : s'.writer = s.writer) : Filed batchSize reported s' := by
  refine ⟨hlogger.trans h.logger, fun config hconfig => ?_, fun w hw => ?_, fun _ => ?_,
    fun hreturned => ?_, fun hreturned => ?_⟩
  · rw [hconfig] at hgoing'
    cases hgoing'
  · exact h.batched w (hwriter ▸ hw)
  · rw [hwriter]
    exact h.going hgoing
  · rw [hreturned] at hgoing'
    cases hgoing'
  · rw [hreturned] at hgoing'
    cases hgoing'

/-- The logger sums up the record that is written next. -/
theorem logger_snoc (h : Filed batchSize reported s) (payment : Payment) (result : PaymentResult) :
    s.logger.reportResult payment result = summary (reported ++ [(payment, result)]) := by
  rw [summary_snoc, h.logger]

/-- A step of the consumer files the records it held. -/
theorem consumerStep (hflush : ∀ w, csv.flush w = .ok ()) {e : TaskEvent}
    (h : Filed batchSize reported s) (hstep : ConsumerStep csv s e s') :
    Filed batchSize (reported ++ s.consumer.held) s' := by
  cases hstep with
  | @start config writer hphase hnew =>
    obtain ⟨rfl, -, rfl⟩ := h.starting config hphase
    obtain ⟨w, hw, rfl⟩ := exists_of_createWriter hnew
    obtain ⟨hbatched, haccepted⟩ := BatchedWriter.new_batched hw
    rw [hphase]
    refine ⟨h.logger, nofun, fun w' hw' => ?_, fun _ => ⟨w, rfl, haccepted⟩, nofun, nofun⟩
    obtain rfl := Option.some.inj hw'
    exact hbatched
  | @startFailed config err hphase hnew =>
    obtain ⟨rfl, hnone, rfl⟩ := h.starting config hphase
    rw [hphase]
    refine ⟨h.logger, nofun, h.batched, nofun, nofun, fun _ w hw => ?_⟩
    -- there is no file yet
    have hw' : s.writer = some w := hw
    rw [hnone] at hw'
    cases hw'
  | leave hphase | poll hphase | receive hphase | finish hphase | pending hphase =>
    rw [hphase]
    show Filed batchSize (reported ++ []) _
    rw [List.append_nil]
    exact h.goOn (by rw [hphase]; rfl) rfl rfl rfl
  | @record n payment result writer hphase hqueue =>
    obtain ⟨w, hw, haccepted⟩ := h.going (by rw [hphase]; rfl)
    rw [hw] at hqueue
    obtain ⟨hres, rfl⟩ := Prod.mk.inj hqueue
    have hqueued : w.queue csv (payment, result) = (.ok (), (w.queue csv (payment, result)).2) :=
      Prod.ext hres rfl
    rw [hphase]
    refine ⟨?_, nofun, fun w' hw' => ?_, fun _ => ⟨_, rfl, ?_⟩, nofun, nofun⟩
    · exact h.logger_snoc payment result
    · obtain rfl := Option.some.inj hw'
      exact (h.batched w hw).queue hflush hqueued
    · rw [BatchedWriter.accepted_queue hqueued, haccepted]
      rfl
  | @recordFailed n payment result err writer hphase hqueue =>
    obtain ⟨w, hw, haccepted⟩ := h.going (by rw [hphase]; rfl)
    rw [hw] at hqueue
    obtain ⟨hres, rfl⟩ := Prod.mk.inj hqueue
    obtain ⟨hbatched, hfile⟩ := BatchedWriter.queue_failed hflush (h.batched w hw)
      (show w.queue csv (payment, result) = (.error err, (w.queue csv (payment, result)).2) from
        Prod.ext hres rfl)
    rw [hphase]
    refine ⟨?_, nofun, fun w' hw' => ?_, nofun, nofun, fun _ w' hw' => ?_⟩
    · exact h.logger_snoc payment result
    · obtain rfl := Option.some.inj hw'
      exact hbatched
    · obtain rfl := Option.some.inj hw'
      exact ⟨reported, (payment, result), rfl, hfile.trans haccepted⟩
  | @close writer hphase hclose =>
    obtain ⟨w, hw, haccepted⟩ := h.going (by rw [hphase]; rfl)
    rw [hw] at hclose
    simp only [closeWriter, BatchedWriter.write_of_flush hflush, true_or, if_true] at hclose
    obtain ⟨-, rfl⟩ := Prod.mk.inj hclose
    rw [hphase]
    show Filed batchSize (reported ++ []) _
    rw [List.append_nil]
    refine ⟨h.logger, nofun, fun w' hw' => ?_, nofun, fun _ => ⟨_, rfl, haccepted⟩, nofun⟩
    obtain rfl := Option.some.inj hw'
    exact (h.batched w hw).flushed
  | @closeFailed err writer hphase hclose =>
    -- flushing does not fail
    obtain ⟨w, hw, haccepted⟩ := h.going (by rw [hphase]; rfl)
    rw [hw] at hclose
    simp only [closeWriter, BatchedWriter.write_of_flush hflush] at hclose
    cases hclose
  | exit hphase =>
    rw [hphase]
    show Filed batchSize (reported ++ []) _
    rw [List.append_nil]
    exact ⟨h.logger, nofun, h.batched, nofun, nofun, nofun⟩

/-- A turn of the consumer files the records reported in it. -/
theorem turn (hflush : ∀ w, csv.flush w = .ok ()) {now : List Record}
    (h : Filed batchSize reported s) (hturn : ConsumerTurn csv s now s') :
    Filed batchSize (reported ++ now) s' := by
  cases hturn with
  | consumer hstep => exact h.consumerStep hflush hstep
  | others hconsumer hlogger hwriter =>
    rw [List.append_nil]
    constructor
    · exact hlogger.trans h.logger
    · rw [hconsumer, hwriter]
      exact h.starting
    · rw [hwriter]
      exact h.batched
    · rw [hconsumer, hwriter]
      exact h.going
    · rw [hconsumer, hwriter]
      exact h.returned
    · rw [hconsumer, hwriter]
      exact h.failed

end Filed

/-- **The file matches the summary.** Whatever results the consumer receives and however it comes to
its end: once it has returned without an error, the file holds exactly what was reported to the
logger, in order, and the logger has counted as many. Before that less than a batch has not been
flushed, and if a record fails to serialize, all earlier ones are in the file. -/
theorem results_file (hflush : ∀ w, csv.flush w = .ok ()) {start : Simulation γ}
    {turns : List (List Record)} (hstart : start.consumer = .starting (some batchSize))
    (hlogger : start.logger = .new) (hwriter : start.writer = none)
    (h : Steps (ConsumerTurn csv) start turns s) :
    s.logger = summary turns.flatten ∧
    (s.consumer = .returned false → ∃ w, s.writer = some w ∧ w.writer.file = turns.flatten ∧
      s.logger.successPayment + s.logger.failedPayment = UInt64.ofNat w.writer.file.length) ∧
    (∀ w, s.writer = some w → w.writer.buffer.length < batchSize.toNat) ∧
    (s.consumer = .returned true → ∀ w, s.writer = some w →
      ∃ earlier record, turns.flatten = earlier ++ [record] ∧ w.writer.file = earlier) := by
  have hfiled : Filed batchSize turns.flatten s := by
    refine h.invariant (I := fun turns s => Filed batchSize turns.flatten s) ?_ ?_
    · refine ⟨hlogger, fun config hconfig => ?_, fun w hw => ?_, fun hgoing => ?_,
        fun hreturned => ?_, fun hreturned => ?_⟩
      · rw [hstart] at hconfig
        exact ⟨(ConsumerPhase.starting.inj hconfig).symm, hwriter, rfl⟩
      · rw [hwriter] at hw
        cases hw
      · rw [hstart] at hgoing
        cases hgoing
      · rw [hstart] at hreturned
        cases hreturned
      · rw [hstart] at hreturned
        cases hreturned
    · intro turns s now s' hfiled hturn
      rw [List.flatten_append, List.flatten_singleton]
      exact hfiled.turn hflush hturn
  refine ⟨hfiled.logger, fun hreturned => ?_, fun w hw => (hfiled.batched w hw).lt, hfiled.failed⟩
  obtain ⟨w, hw, hfile⟩ := hfiled.returned hreturned
  refine ⟨w, hw, hfile, ?_⟩
  rw [hfile, hfiled.logger]
  exact totalAttempts_summary turns.flatten

/-- Another task sends a result, which the consumer receives and records. -/
theorem turns_recorded {start : Simulation γ} {turns : List (List Record)} (record : Record)
    {writer : Option BatchedWriter} (h : Steps (ConsumerTurn csv) start turns s)
    (hphase : s.consumer = .receiving) (hquiet : s.shutdown = false)
    (hqueue : queueRecord csv s.writer record = (.ok (), writer)) :
    ∃ turns', turns'.flatten = turns.flatten ++ [record] ∧
      Steps (ConsumerTurn csv) start turns'
        { s with
          consumer := .receiving
          logger := s.logger.reportResult record.1 record.2
          writer
          results := none } := by
  have sent : ConsumerTurn csv s [] { s with results := some (0, record) } := .others rfl rfl rfl
  have h := h.tail sent
  have h := h.tail (.consumer (.poll hphase hquiet))
  have h := h.tail (.consumer (.receive rfl rfl))
  have h := h.tail (.consumer (.record rfl hqueue))
  exact ⟨_, by simp [hphase, ConsumerPhase.held], h⟩

/-- The signal is raised, and the consumer leaves and closes the writer. -/
theorem turns_closed {start : Simulation γ} {turns : List (List Record)}
    {writer : Option BatchedWriter} (h : Steps (ConsumerTurn csv) start turns s)
    (hphase : s.consumer = .receiving) (hclose : closeWriter csv s.writer = (.ok (), writer)) :
    ∃ turns', turns'.flatten = turns.flatten ∧
      Steps (ConsumerTurn csv) start turns'
        { s with shutdown := true, consumer := .returned false, writer, results := none } := by
  have triggered : ConsumerTurn csv s [] { s with shutdown := true } := .others rfl rfl rfl
  have h := h.tail triggered
  have h := h.tail (.consumer (.leave hphase rfl))
  have h := h.tail (.consumer (.close rfl hclose))
  exact ⟨_, by simp [hphase, ConsumerPhase.held], h⟩

/-- The result of a payment with this hash. -/
def sampleRecord (hash : Nat) (outcome : PaymentOutcome) : Record :=
  (⟨⟨1⟩, ⟨2⟩, 1000, some ⟨hash⟩, nanosPerSec⟩, ⟨1, outcome⟩)

def threeRecords : List Record :=
  [sampleRecord 7 .success, sampleRecord 8 (.indexFailure 0), sampleRecord 9 .success]

/-- `onePaymentStart` with results written in batches of two. -/
def twoAtOnceStart : Simulation Unit := { onePaymentStart with consumer := .starting (some 2) }

/-- Three results, and the shutdown signal after them. The first two fill a batch, and the third is
written on the way out. -/
theorem results_file_threeRecords : ∃ turns s w,
    Steps (ConsumerTurn reliableCsv) twoAtOnceStart turns s ∧ s.consumer = .returned false ∧
      s.writer = some w ∧ w.writer.file = threeRecords := by
  have h : Steps (ConsumerTurn reliableCsv) twoAtOnceStart [] _ := .refl
  have h := h.tail (.consumer (.start rfl rfl))
  obtain ⟨turns₁, hturns₁, h⟩ := turns_recorded (sampleRecord 7 .success) h rfl rfl rfl
  obtain ⟨turns₂, hturns₂, h⟩ := turns_recorded (sampleRecord 8 (.indexFailure 0)) h rfl rfl rfl
  obtain ⟨turns₃, hturns₃, h⟩ := turns_recorded (sampleRecord 9 .success) h rfl rfl rfl
  obtain ⟨turns, hturns, h⟩ := turns_closed h rfl rfl
  obtain ⟨-, hreturned, -, -⟩ := results_file (fun _ => rfl) rfl rfl rfl h
  obtain ⟨w, hw, hfile, -⟩ := hreturned rfl
  refine ⟨_, _, w, h, rfl, hw, ?_⟩
  rw [hfile, hturns, hturns₃, hturns₂, hturns₁]
  rfl

end SimLn
