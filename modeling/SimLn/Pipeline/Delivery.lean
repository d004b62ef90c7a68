import SimLn.Pipeline.Records
import SimLn.Scheduler.Defined

/-!
# SimLn — whether every payment is recorded

When the producer runs out of payments it raises the shutdown signal, and the tasks that handle
results prefer the signal to results. A payment that is still under way then is lost: in a run
without errors every payment is recorded exactly when no task leaves on the signal while a payment is
under way.
-/

namespace SimLn

open Lib

variable {γ : Type} {clock : Clock} {csv : Csv} {nodes : Table PublicKey NodeInfo}
  {s s' : Simulation γ} {e : TaskEvent} {trace : List TaskEvent}

/-- Errors of nodes and channels, the end of the simulation's total time, a signal from outside. -/
def TaskEvent.isFault : TaskEvent → Bool
  | .sent _ (.error _) | .tracked _ (.error _) | .missingNode _ | .closed _ | .timedOut
  | .shutdown => true
  | _ => false

/-- A step that goes as intended: it is no fault, the results file can be written, and if a task
leaves on the shutdown signal, no payment is under way. -/
structure TaskEvent.Calm (e : TaskEvent) : Prop where
  noFault : e.isFault = false
  written : e ≠ .writerFailed
  drained : ∀ underWay, e = .interrupted underWay → underWay = []

/-- What holds as long as all steps are calm. The signal is raised by the producer at its end, and
the tasks that handle results end when nothing is left for them. -/
structure Sound (s : Simulation γ) : Prop where
  signal : s.shutdown = true → s.producer = .finished
  failedSends : s.failedSends = 0
  resultsProducer : s.resultsProducer.ended = true → s.resultsProducer ≠ .returned true ∧
    s.producer.ended = true ∧ s.sends = [] ∧ s.output = none
  consumer : s.consumer.left = true → s.consumer ≠ .returned true ∧
    s.producer.ended = true ∧ s.underWay = []

namespace Sound

/-- While a payment is under way the consumer goes on. -/
theorem not_left {n : Nat} (h : Sound s) (hn : 0 < s.underWay.count n) :
    s.consumer.left = false := by
  by_contra hleft
  rw [(h.consumer (by simpa using hleft)).2.2] at hn
  exact absurd hn (by simp)

/-- While the producer goes on, so does everything else. -/
theorem going (h : Sound s) (hproducer : s.producer.ended = false) :
    s.shutdown = false ∧ s.resultsProducer.ended = false ∧ s.consumer.left = false := by
  refine ⟨?_, ?_, ?_⟩
  · by_contra hsignal
    rw [h.signal (by simpa using hsignal)] at hproducer
    cases hproducer
  · by_contra hended
    rw [(h.resultsProducer (by simpa using hended)).2.1] at hproducer
    cases hproducer
  · by_contra hleft
    rw [(h.consumer (by simpa using hleft)).2.1] at hproducer
    cases hproducer

/-- A state in which nothing has ended. -/
theorem of_going (hsignal : s.shutdown = false) (hfailed : s.failedSends = 0)
    (hproducer : s.resultsProducer.ended = false) (hconsumer : s.consumer.left = false) :
    Sound s where
  signal h := absurd h (by simp [hsignal])
  failedSends := hfailed
  resultsProducer h := absurd h (by simp [hproducer])
  consumer h := absurd h (by simp [hconsumer])

/-- The producer's steps keep the pipeline sound. -/
theorem producerStep (h : Sound s) (hstep : ProducerStep clock nodes s e s') : Sound s' := by
  cases hstep
  case trigger hphase =>
    exact
      { signal := fun _ => rfl
        failedSends := h.failedSends
        resultsProducer := fun hended =>
          ⟨(h.resultsProducer hended).1, rfl, (h.resultsProducer hended).2.2⟩
        consumer := fun hleft => ⟨(h.consumer hleft).1, rfl, (h.consumer hleft).2.2⟩ }
  case poll hphase _ | leave hphase _ | pop hphase _ | pollSleep hphase _ | leaveSleep hphase _ |
      pending hphase | fail hphase _ _ | dispatch hphase _ _ _ _ =>
    obtain ⟨hsignal, hproducer, hconsumer⟩ := h.going (by rw [hphase]; rfl)
    exact of_going hsignal h.failedSends hproducer hconsumer

/-- The steps of a task that holds a payment, by which it neither ends the results producer nor the
consumer. -/
theorem of_holding {n : Nat} (h : Sound s) (hn : 0 < s.underWay.count n)
    (hsignal : s'.shutdown = s.shutdown) (hproducer : s'.producer = s.producer)
    (hfailed : s'.failedSends = s.failedSends) (hconsumer : s'.consumer = s.consumer)
    (hended : s'.resultsProducer.ended = false ∨
      (s'.resultsProducer = s.resultsProducer ∧ s'.sends = s.sends ∧ s'.output = s.output)) :
    Sound s' where
  signal := by
    rw [hsignal, hproducer]
    exact h.signal
  failedSends := hfailed.trans h.failedSends
  resultsProducer hend := by
    rcases hended with hopen | ⟨hsame, hsends, houtput⟩
    · rw [hopen] at hend
      cases hend
    · rw [hsame] at hend
      rw [hsame, hproducer, hsends, houtput]
      exact h.resultsProducer hend
  consumer hleft := by
    rw [hconsumer, h.not_left hn] at hleft
    cases hleft

/-- While a payment is being sent the results producer goes on. -/
theorem not_ended_of_sends (h : Sound s) (hsends : s.sends ≠ []) :
    s.resultsProducer.ended = false := by
  by_contra hended
  exact hsends (h.resultsProducer (by simpa using hended)).2.2.1

/-- A send task only finds the output channel closed after a shutdown. -/
theorem sendStep (h : Sound s) (hstep : SendStep s e s') (he : e.Calm) : Sound s' := by
  cases hstep with
  | sent hsends =>
    exact h.of_holding (count_of_send hsends) rfl rfl rfl rfl
      (Or.inl (h.not_ended_of_sends (by simp [hsends])))
  | @fail _ _ n node dispatch outcome _ hsends houtput =>
    cases outcome with
    | ok hash => cases houtput
    | error e => cases he.noFault
  | send hsends hfree hopen =>
    exact h.of_holding (count_of_send hsends) rfl rfl rfl rfl (Or.inl hopen)
  | closed => cases he.noFault
  | trigger hfailed =>
    rw [h.failedSends] at hfailed
    cases hfailed

/-- The results producer ends when all senders of outputs have gone. -/
theorem resultsProducerStep (h : Sound s) (hstep : ResultsProducerStep nodes s e s')
    (he : e.Calm) : Sound s' := by
  cases hstep with
  | track hphase houtput =>
    exact h.of_holding (count_of_output houtput) rfl rfl rfl rfl (Or.inl (by rw [hphase]; rfl))
  | missingNode | closed => cases he.noFault
  | report hphase houtput =>
    exact h.of_holding (count_of_output houtput) rfl rfl rfl rfl (Or.inl rfl)
  | finish hphase houtput hproducer hsends =>
    refine
      { signal := h.signal
        failedSends := h.failedSends
        resultsProducer := fun _ => ⟨by simp, hproducer, hsends, houtput⟩
        consumer := fun hleft => ?_ }
    obtain ⟨hreturned, hended, hnil⟩ := h.consumer hleft
    refine ⟨hreturned, hended, ?_⟩
    rw [← hnil]
    simp only [Simulation.underWay, hphase]
    rfl
  | leave hphase =>
    -- it leaves with nothing under way, yet holds a payment
    have hnil := he.drained _ rfl
    have hpos := count_of_resultsProducer (by rw [hphase]; rfl : s.resultsProducer.payments = [_])
    rw [hnil] at hpos
    exact absurd hpos (by simp)
  | poll hphase | send hphase | pending hphase =>
    exact h.of_holding (count_of_resultsProducer (by rw [hphase]; rfl)) rfl rfl rfl rfl (Or.inl rfl)
  | @exit failed hphase =>
    obtain ⟨hfailed, hrest⟩ := h.resultsProducer (by rw [hphase]; rfl)
    have hfalse : failed = false := by
      by_contra htrue
      exact hfailed (by rw [hphase, Bool.eq_true_of_not_eq_false htrue])
    refine
      { signal := fun hsignal => h.signal (by simpa [hfalse] using hsignal)
        failedSends := h.failedSends
        resultsProducer := fun _ => ⟨by simp, hrest⟩
        consumer := fun hleft => ?_ }
    obtain ⟨hreturned, hended, hnil⟩ := h.consumer hleft
    refine ⟨hreturned, hended, ?_⟩
    rw [← hnil]
    simp only [Simulation.underWay, hphase]
    rfl

/-- A tracker only leaves early after a shutdown. -/
theorem trackerStep (h : Sound s) (hstep : TrackerStep s e s') (he : e.Calm) : Sound s' := by
  cases hstep with
  | tracked htrackers | abandoned htrackers | poll htrackers | send htrackers | pending htrackers =>
    exact h.of_holding (count_of_tracker htrackers) rfl rfl rfl rfl (Or.inr ⟨rfl, rfl, rfl⟩)
  | leave htrackers =>
    have hpos := count_of_tracker htrackers
    rw [he.drained _ rfl] at hpos
    exact absurd hpos (by simp)
  | closed => cases he.noFault

/-- The consumer ends when all senders of results have gone. -/
theorem consumerStep (h : Sound s) (hstep : ConsumerStep csv s e s') (he : e.Calm) : Sound s' := by
  cases hstep with
  | start | poll | pending | receive | record =>
    exact
      { signal := h.signal
        failedSends := h.failedSends
        resultsProducer := h.resultsProducer
        consumer := fun hleft => by cases hleft }
  | startFailed | recordFailed | closeFailed => exact absurd rfl he.written
  | leave hphase hsignal =>
    refine
      { signal := h.signal
        failedSends := h.failedSends
        resultsProducer := h.resultsProducer
        consumer := fun _ => ⟨by simp, by rw [h.signal hsignal]; rfl, ?_⟩ }
    rw [← he.drained _ rfl]
    simp only [Simulation.underWay, hphase]
    rfl
  | finish hphase hresults hproducer htrackers =>
    obtain ⟨-, hended, hsends, houtput⟩ := h.resultsProducer hproducer
    -- the results producer has ended, and everything before it is empty
    have hpayments : s.resultsProducer.payments = [] := by
      cases hrp : s.resultsProducer with
      | returned | finished | receiving => rfl
      | reporting | polled =>
        rw [hrp] at hproducer
        cases hproducer
    refine
      { signal := h.signal
        failedSends := h.failedSends
        resultsProducer := h.resultsProducer
        consumer := fun _ => ⟨by simp, hended, ?_⟩ }
    simp only [Simulation.underWay, hsends, houtput, hpayments, htrackers, hresults]
    rfl
  | close hphase =>
    obtain ⟨-, hended, hnil⟩ := h.consumer (by rw [hphase]; rfl)
    refine
      { signal := h.signal
        failedSends := h.failedSends
        resultsProducer := h.resultsProducer
        consumer := fun _ => ⟨by simp, hended, ?_⟩ }
    simp only [Simulation.underWay, List.append_eq_nil_iff] at hnil ⊢
    exact ⟨⟨hnil.1.1, rfl⟩, rfl⟩
  | @exit failed hphase =>
    obtain ⟨hfailed, hended, hnil⟩ := h.consumer (by rw [hphase]; rfl)
    have hfalse : failed = false := by
      by_contra htrue
      exact hfailed (by rw [hphase, Bool.eq_true_of_not_eq_false htrue])
    refine
      { signal := fun hsignal => h.signal (by simpa [hfalse] using hsignal)
        failedSends := h.failedSends
        resultsProducer := h.resultsProducer
        consumer := fun _ => ⟨by simp, hended, ?_⟩ }
    rw [← hnil]
    simp only [Simulation.underWay, hphase]
    rfl

/-- In calm weather every step keeps the pipeline sound. -/
theorem step (h : Sound s) (hstep : SimulationStep clock csv nodes s e s') (he : e.Calm) :
    Sound s' := by
  cases hstep with
  | producer hstep => exact h.producerStep hstep
  | send hstep => exact h.sendStep hstep he
  | resultsProducer hstep => exact h.resultsProducerStep hstep he
  | tracker hstep => exact h.trackerStep hstep he
  | consumer hstep => exact h.consumerStep hstep he
  | background hstep =>
    cases hstep with
    | log => exact h
    | leaveLogger | leaveTimeout =>
      exact
        { signal := h.signal
          failedSends := h.failedSends
          resultsProducer := h.resultsProducer
          consumer := h.consumer }
    | timedOut | shutdown => cases he.noFault

/-- A calm step loses nothing. -/
theorem not_loses (h : Sound s) (he : e.Calm) : ¬ Loses s e := by
  intro hloses
  cases hloses with
  | sent | missingNode | closed => cases he.noFault
  | interrupted hne => exact hne (he.drained _ rfl)
  | writerFailed => exact he.written rfl
  | dropped hphase hresults =>
    obtain ⟨item, hitem⟩ := Option.ne_none_iff_exists'.mp hresults
    have hleft := h.not_left (count_of_results hitem)
    rw [hphase] at hleft
    cases hleft

end Sound

/-- Every payment that has been dispatched is under way or recorded. -/
def Delivering (trace : List TaskEvent) (s : Simulation γ) : Prop :=
  ∀ n < s.dispatched.length, account n trace s = 1

/-- And it loses no payment. -/
theorem Delivering.step (h : Delivering trace s) (haccounted : Accounted trace s) (hsound : Sound s)
    (hstep : SimulationStep clock csv nodes s e s') (he : e.Calm) :
    Delivering (trace ++ [e]) s' := by
  intro n hlt
  obtain ⟨lost, hlost, hbalance⟩ := hstep.balance
  obtain rfl : lost = [] := hlost.resolve_right (hsound.not_loses he)
  have hn := hbalance n
  rw [List.count_nil] at hn
  rw [account_snoc]
  rcases hstep.dispatched with ⟨⟨d, hd⟩, hcreated⟩ | ⟨hd, hcreated⟩
  · rw [hd, List.length_append, List.length_singleton] at hlt
    rw [hcreated, List.count_singleton] at hn
    by_cases hlen : s.dispatched.length = n
    -- the payment that this step dispatches, of which there was no trace before
    · have hzero := (haccounted n).2 (le_of_eq hlen)
      unfold account at hzero
      rw [if_pos (by simpa using hlen)] at hn
      omega
    -- an older payment has only changed hands
    · have hone := h n (by omega)
      unfold account at hone
      rw [if_neg (by simpa using hlen)] at hn
      omega
  · have hone := h n (hd ▸ hlt)
    unfold account at hone
    rw [hcreated, List.count_nil] at hn
    omega

/-- In a run of calm steps nothing is lost, and what ends is done. -/
theorem run_delivering {p : Producer γ} {now : SystemTime} {writeResults : Option UInt32}
    {timeout : Bool}
    (h : SimulationRun clock csv nodes (.start p now writeResults timeout) trace s)
    (hcalm : ∀ e ∈ trace, e.Calm) : Sound s ∧ Delivering trace s := by
  have hrun := h.and_of_forall hcalm
  suffices Sound s ∧ Accounted trace s ∧ Delivering trace s from ⟨this.1, this.2.2⟩
  refine hrun.invariant (I := fun trace s => Sound s ∧ Accounted trace s ∧ Delivering trace s) ?_ ?_
  · exact ⟨Sound.of_going rfl rfl rfl rfl, fun _ => ⟨Nat.zero_le 1, fun _ => rfl⟩,
      fun n hn => absurd hn (Nat.not_lt_zero n)⟩
  · rintro trace s e s' ⟨hsound, haccounted, hdelivering⟩ ⟨hstep, he⟩
    exact ⟨hsound.step hstep he, haccounted.step hstep,
      hdelivering.step haccounted hsound hstep he⟩

/-! ## Complete runs -/

/-- Every payment dispatched has exactly one record, with the hash and the result that its own calls
have returned. The logger has counted as many, and the results file, if there is one, holds the
records. -/
structure Recorded (nodes : Table PublicKey NodeInfo) (writeResults : Option UInt32)
    (trace : List TaskEvent) (s : Simulation γ) : Prop where
  once : ((recordings trace).map Prod.fst).Perm (List.range s.dispatched.length)
  own : ∀ n record, (n, record) ∈ recordings trace → ∃ d node hash result,
    s.dispatched[n]? = some d ∧ nodes.lookup d.event.source = some node ∧
      .sent n (.ok hash) ∈ trace ∧ .tracked n (.ok result) ∈ trace ∧
      record = (d.payment node (some hash), result)
  counted : s.logger.totalAttempts = UInt64.ofNat s.dispatched.length
  written : ∀ batchSize, writeResults = some batchSize → ∃ w, s.writer = some w ∧
    w.writer.file = (recordings trace).map Prod.snd

/-- A run without a fault: no node or channel fails, there is no total time, and no signal comes from
outside. -/
def Undisturbed (trace : List TaskEvent) : Prop := ∀ e ∈ trace, e.isFault = false

instance : DecidablePred Undisturbed := fun trace =>
  inferInstanceAs (Decidable (∀ e ∈ trace, e.isFault = false))

/-- A number below the length is in the range once. -/
theorem count_range (n len : Nat) : (List.range len).count n = if n < len then 1 else 0 := by
  rw [List.nodup_range.count]
  simp only [List.mem_range]

/-- In a run without a fault a record holds what the payment's own calls have returned. -/
theorem own_of_undisturbed (htraced : Traced nodes trace s) (hclean : Undisturbed trace) {n : Nat}
    {payment : Payment} {result : PaymentResult}
    (hrecorded : .recorded n (payment, result) ∈ trace) : ∃ d node hash result',
    s.dispatched[n]? = some d ∧ nodes.lookup d.event.source = some node ∧
      .sent n (.ok hash) ∈ trace ∧ .tracked n (.ok result') ∈ trace ∧
      (payment, result) = (d.payment node (some hash), result') := by
  rcases htraced.recorded n payment result hrecorded with
    ⟨d, node, outcome, hd, hnode, hsent, houtput⟩ |
      ⟨⟨d, node, outcome, hd, hnode, hsent, houtput⟩, tracked, htracked, hresult⟩
  · cases outcome with
    | ok hash => cases houtput
    | error e => cases hclean _ hsent
  · cases outcome with
    | error e => cases hclean _ hsent
    | ok hash =>
      cases tracked with
      | error e => cases hclean _ htracked
      | ok result' =>
        obtain rfl : d.payment node (some hash) = payment :=
          SimulationOutput.sendPaymentSuccess.inj (Except.ok.inj houtput)
        exact ⟨d, node, hash, result', hd, hnode, hsent, htracked, by rw [hresult]; rfl⟩

/-- **When every payment is recorded.** In a complete run without a fault, whose results file can be
written, all payments are recorded exactly if no task leaves on the shutdown signal while a payment
is under way. -/
theorem recorded_iff {p : Producer γ} {now : SystemTime} {writeResults : Option UInt32}
    {timeout : Bool}
    (h : SimulationRun clock csv nodes (.start p now writeResults timeout) trace s)
    (hdone : s.Done) (hclean : Undisturbed trace) (hwriter : .writerFailed ∉ trace) :
    Recorded nodes writeResults trace s ↔
      ∀ underWay, .interrupted underWay ∈ trace → underWay = [] := by
  have haccounted := run_accounted h
  have hledger := run_ledger h hwriter
  constructor
  · intro hrecorded underWay hmem
    by_contra hne
    -- the payments that were under way then are never recorded
    obtain ⟨n, hlost⟩ := exists_lost h hmem hne
    have hcount := List.perm_iff_count.mp hrecorded.once n
    rw [hlost.unrecorded, count_range, if_pos hlost.dispatched] at hcount
    cases hcount
  · intro hdrained
    have hcalm : ∀ e ∈ trace, e.Calm := fun e he =>
      { noFault := hclean e he
        written := fun heq => hwriter (heq ▸ he)
        drained := fun underWay heq => hdrained underWay (heq ▸ he) }
    obtain ⟨hsound, hdelivering⟩ := run_delivering h hcalm
    -- nothing is under way at the end, so that every payment is recorded
    have hnil : s.underWay = [] := (hsound.consumer (by rw [hdone.consumer]; rfl)).2.2
    have honce : ((recordings trace).map Prod.fst).Perm (List.range s.dispatched.length) := by
      refine List.perm_iff_count.mpr fun n => ?_
      rw [count_range]
      by_cases hlt : n < s.dispatched.length
      · have hone := hdelivering n hlt
        rw [account, hnil] at hone
        simpa [hlt] using hone
      · have hzero := (haccounted n).2 (not_lt.mp hlt)
        rw [account, hnil] at hzero
        simpa [hlt] using hzero
    refine
      { once := honce
        own := fun n record hmem =>
          own_of_undisturbed (run_traced h) hclean (mem_recordings.mp hmem)
        counted := ?_
        written := ?_ }
    · have hlength := honce.length_eq
      rw [List.length_map, List.length_range] at hlength
      rw [hledger.counted, hlength]
    · intro batchSize hsome
      have hcreated := hledger.created (by simp [hdone.consumer])
      rw [hsome] at hcreated
      obtain ⟨w, hw⟩ := Option.isSome_iff_exists.mp hcreated
      refine ⟨w, hw, ?_⟩
      rw [hledger.flushed (by rw [hdone.consumer]; rfl) w hw]
      exact hledger.accepted w hw

/-- The payments under way each time a task has left on the shutdown signal. -/
def interruptions (trace : List TaskEvent) : List (List Nat) :=
  trace.filterMap fun
    | .interrupted underWay => some underWay
    | _ => none

/-- The interruptions are those of the events that say so. -/
theorem mem_interruptions {underWay : List Nat} :
    underWay ∈ interruptions trace ↔ .interrupted underWay ∈ trace := by
  unfold interruptions
  rw [List.mem_filterMap]
  constructor
  · rintro ⟨e, he, heq⟩
    cases e <;> simp only [reduceCtorEq, Option.some.injEq] at heq
    exact heq ▸ he
  · intro he
    exact ⟨_, he, rfl⟩

/-! ## The last payment of a simulation -/

/-- A csv writer that never fails and writes only when it is flushed. -/
def reliableCsv : Csv where
  fromPath := .ok ()
  serialize _ _ := .ok ()
  spills _ _ := 0
  flush _ := .ok ()

/-- The producer of one activity of one payment. -/
def onePayment (heap : EventHeap) (completed : Nat) : Producer Unit where
  heap
  paymentsTracker := AList.insert ⟨1⟩ ⟨(sampleActivity 1 2 1 1).executor lowestRng, completed⟩ ∅
  generators := ()

def onePaymentEvent (secs : Nat) : PaymentEvent :=
  ⟨⟨1⟩, Duration.fromSecs secs, sampleNode 2, 1000⟩

theorem onePayment_setup :
    setupPaymentEvents (activityExecutors lowestRng [sampleActivity 1 2 1 1]) 0 ()
      = .ok ([.scheduled ⟨1⟩ nanosPerSec], onePayment (MinHeap.empty.push (onePaymentEvent 1)) 0) :=
  rfl

/-- The producer sleeps for the second until the payment is due. -/
theorem onePayment_sleeps :
    (onePayment (MinHeap.empty.push (onePaymentEvent 1)) 0).popEvent sampleNodes 0
      = .sleeping (onePaymentEvent 1) nanosPerSec (onePayment .empty 1) := by
  have hwait : waitTime (0 + Duration.fromSecs 1) 0 = Duration.fromSecs 1 :=
    waitTime_wholeSeconds (by decide)
  rw [zero_add] at hwait
  show PoppedEvent.sleeping _ (waitTime (Duration.fromSecs 1) 0) _ = _
  rw [hwait]
  rfl

/-- Then it generates the next one, which is due in another second. -/
theorem onePayment_generates :
    (onePayment .empty 1).generatePayment ⟨1⟩ nanosPerSec
      = .ok (nanosPerSec, onePayment (MinHeap.empty.push (onePaymentEvent 2)) 1) :=
  rfl

/-- That one is dropped: the count has been met. -/
theorem onePayment_stops :
    (onePayment (MinHeap.empty.push (onePaymentEvent 2)) 1).popEvent sampleNodes nanosPerSec
      = .stopped ⟨1⟩ (onePayment .empty 1) :=
  rfl

/-- The simulation of one payment, whose results are written in batches of one. -/
def onePaymentStart : Simulation Unit :=
  .start (onePayment (MinHeap.empty.push (onePaymentEvent 1)) 0) 0 (some 1) false

/-- The producer sleeps for a second and dispatches the payment. -/
theorem onePayment_dispatches : ∃ trace s, SimulationRun .exact reliableCsv sampleNodes
    onePaymentStart trace s ∧ trace = [.internal, .internal, .internal,
      .dispatched ⟨onePaymentEvent 1, nanosPerSec⟩] ∧
    s = { onePaymentStart with
      producer := .looping (onePayment (MinHeap.empty.push (onePaymentEvent 2)) 1)
      now := nanosPerSec
      dispatched := [⟨onePaymentEvent 1, nanosPerSec⟩]
      sends := [(0, .calling (sampleNode 1) ⟨onePaymentEvent 1, nanosPerSec⟩)] } := by
  have h := (Steps.refl : SimulationRun .exact reliableCsv sampleNodes onePaymentStart [] _)
  have h := h.tail (.producer (.poll rfl rfl))
  have h := h.tail (.producer (.pop rfl rfl))
  have h := h.tail (.producer (.pollSleep (congrArg PoppedEvent.phase onePayment_sleeps) rfl))
  have h := h.tail (.producer (.dispatch rfl rfl onePayment_generates rfl rfl))
  exact ⟨_, _, h, rfl, rfl⟩

/-- A run in which the payment is recorded before the producer pops the next event. -/
theorem recorded_iff_onePayment : ∃ trace s,
    SimulationRun .exact reliableCsv sampleNodes onePaymentStart trace s ∧ s.Done ∧
    s.dispatched.length = 1 ∧ Recorded sampleNodes (some 1) trace s := by
  obtain ⟨trace, s, h, rfl, rfl⟩ := onePayment_dispatches
  have h := h.tail (.consumer (.start rfl rfl))
  have h := h.tail (.send (@SendStep.sent _ _ [] [] 0 _ _ (.ok ⟨7⟩) _ rfl rfl))
  have h := h.tail (.send (@SendStep.send _ _ [] [] 0 _ rfl rfl rfl))
  have h := h.tail (.resultsProducer (.track rfl rfl (by decide)))
  have h := h.tail (.tracker (@TrackerStep.tracked _ _ [] [] 0 _ (.ok ⟨1, .success⟩) rfl))
  have h := h.tail (.tracker (@TrackerStep.poll _ _ [] [] 0 _ _ rfl rfl))
  have h := h.tail (.tracker (@TrackerStep.send _ _ [] [] 0 _ _ rfl rfl rfl))
  have h := h.tail (.consumer (.poll rfl rfl))
  have h := h.tail (.consumer (.receive rfl rfl))
  have h := h.tail (.consumer (.record rfl rfl))
  -- only now does the producer come to its end
  have h := h.tail (.producer (.poll rfl rfl))
  have h := h.tail (.producer (.pop rfl rfl))
  have h := h.tail (.producer (.poll (congrArg PoppedEvent.phase onePayment_stops) rfl))
  have h := h.tail (.producer (.pop rfl rfl))
  have h := h.tail (.producer (.trigger rfl))
  have h : SimulationRun .exact reliableCsv sampleNodes onePaymentStart (_ ++ [.interrupted []]) _ :=
    h.tail (.consumer (.leave rfl rfl))
  have h := h.tail (.consumer (.close rfl rfl))
  have h := h.tail (.consumer (.exit rfl))
  have h := h.tail (.resultsProducer (.finish rfl rfl rfl rfl))
  have h := h.tail (.resultsProducer (.exit rfl))
  have h := h.tail (.background (.leaveLogger rfl rfl))
  refine ⟨_, _, h, ⟨rfl, rfl, rfl, rfl, rfl, rfl, rfl, rfl⟩, rfl, ?_⟩
  refine (recorded_iff h ⟨rfl, rfl, rfl, rfl, rfl, rfl, rfl, rfl⟩ (by decide) (by decide)).mpr ?_
  intro underWay hmem
  exact List.mem_singleton.mp (mem_interruptions.mpr hmem)

/-- A run of the same simulation in which the payment is lost: the node sends and tracks it, but the
producer has popped the surplus event and raised the signal before its result is received. -/
theorem onePayment_unrecorded : ∃ log₀ p trace s,
    setupPaymentEvents (activityExecutors lowestRng [sampleActivity 1 2 1 1]) 0 () = .ok (log₀, p) ∧
    SimulationRun .exact reliableCsv sampleNodes (.start p 0 (some 1) false) trace s ∧ s.Done ∧
    Undisturbed trace ∧ .writerFailed ∉ trace ∧
    .sent 0 (.ok ⟨7⟩) ∈ trace ∧ .tracked 0 (.ok ⟨1, .success⟩) ∈ trace ∧
    s.dispatched.length = 1 ∧ s.logger.totalAttempts = 0 ∧
    ¬ Recorded sampleNodes (some 1) trace s := by
  obtain ⟨trace, s, h, rfl, rfl⟩ := onePayment_dispatches
  have h := h.tail (.producer (.poll rfl rfl))
  have h := h.tail (.producer (.pop rfl rfl))
  have h := h.tail (.producer (.poll (congrArg PoppedEvent.phase onePayment_stops) rfl))
  have h := h.tail (.producer (.pop rfl rfl))
  have h := h.tail (.producer (.trigger rfl))
  have h := h.tail (.consumer (.start rfl rfl))
  have h : SimulationRun .exact reliableCsv sampleNodes onePaymentStart (_ ++ [.interrupted [0]]) _ :=
    h.tail (.consumer (.leave rfl rfl))
  have h := h.tail (.consumer (.close rfl rfl))
  have h := h.tail (.consumer (.exit rfl))
  have h := h.tail (.send (@SendStep.sent _ _ [] [] 0 _ _ (.ok ⟨7⟩) _ rfl rfl))
  have h := h.tail (.send (@SendStep.send _ _ [] [] 0 _ rfl rfl rfl))
  have h := h.tail (.resultsProducer (.track rfl rfl (by decide)))
  have h := h.tail (.tracker (@TrackerStep.tracked _ _ [] [] 0 _ (.ok ⟨1, .success⟩) rfl))
  have h : SimulationRun .exact reliableCsv sampleNodes onePaymentStart (_ ++ [.interrupted [0]]) _ :=
    h.tail (.tracker (@TrackerStep.leave _ _ [] [] 0 _ _ rfl rfl))
  have h := h.tail (.resultsProducer (.finish rfl rfl rfl rfl))
  have h := h.tail (.resultsProducer (.exit rfl))
  have h := h.tail (.background (.leaveLogger rfl rfl))
  refine ⟨_, _, _, _, onePayment_setup, h, ⟨rfl, rfl, rfl, rfl, rfl, rfl, rfl, rfl⟩, by decide,
    by decide, by decide, by decide, rfl, rfl, fun hrecorded => ?_⟩
  exact absurd hrecorded.once.length_eq (by decide)

end SimLn
