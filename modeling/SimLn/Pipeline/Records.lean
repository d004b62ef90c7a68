import SimLn.Pipeline.Conservation
import SimLn.Lib.Lists

/-!
# SimLn — what is recorded

The record of a payment holds what the payment's own calls have returned (`Traced`), and what the
logger has counted and the results file holds is exactly what has been recorded (`Ledger`). Both are
invariants of every run.
-/

namespace SimLn

open Lib

variable {γ : Type} {clock : Clock} {csv : Csv} {nodes : Table PublicKey NodeInfo}
  {s s' : Simulation γ} {e : TaskEvent} {trace : List TaskEvent}

/-! ## Where a record comes from -/

/-- `output` is what the node that payment `n` was dispatched from made of it. -/
def Sent (nodes : Table PublicKey NodeInfo) (dispatched : List Dispatch) (trace : List TaskEvent)
    (n : Nat) (output : SimulationOutput) : Prop :=
  ∃ d node outcome, dispatched[n]? = some d ∧ nodes.lookup d.event.source = some node ∧
    .sent n outcome ∈ trace ∧ sendPayment node d outcome = .ok output

/-- `result` is the final result of payment `n`: the payment could not be sent, or it has been
tracked. -/
def Reports (nodes : Table PublicKey NodeInfo) (dispatched : List Dispatch)
    (trace : List TaskEvent) (n : Nat) (payment : Payment) (result : PaymentResult) : Prop :=
  Sent nodes dispatched trace n (.sendPaymentFailure payment result) ∨
    (Sent nodes dispatched trace n (.sendPaymentSuccess payment) ∧
      ∃ outcome, .tracked n outcome ∈ trace ∧ result = trackPaymentResult payment outcome)

/-- What has been sent has been sent later on too. -/
theorem Sent.mono {dispatched dispatched' : List Dispatch} {trace after : List TaskEvent} {n : Nat}
    {output : SimulationOutput} (hdispatched : dispatched <+: dispatched')
    (h : Sent nodes dispatched trace n output) :
    Sent nodes dispatched' (trace ++ after) n output := by
  obtain ⟨d, node, outcome, hd, hnode, hsent, houtput⟩ := h
  exact ⟨d, node, outcome, getElem?_of_isPrefix hdispatched hd, hnode, List.mem_append_left _ hsent,
    houtput⟩

/-- What has been reported has been reported later on too. -/
theorem Reports.mono {dispatched dispatched' : List Dispatch} {trace after : List TaskEvent}
    {n : Nat} {payment : Payment} {result : PaymentResult} (hdispatched : dispatched <+: dispatched')
    (h : Reports nodes dispatched trace n payment result) :
    Reports nodes dispatched' (trace ++ after) n payment result := by
  rcases h with h | ⟨h, outcome, htracked, hresult⟩
  · exact Or.inl (h.mono hdispatched)
  · exact Or.inr ⟨h.mono hdispatched, outcome, List.mem_append_left _ htracked, hresult⟩

/-- What the tasks and channels hold of a payment comes from the payment's own calls. A tracker that
waits to report may hold an outcome of its node's shutdown listener, but only once that has fired. -/
structure Traced (nodes : Table PublicKey NodeInfo) (trace : List TaskEvent) (s : Simulation γ) :
    Prop where
  calling : ∀ n node d, (n, SendPhase.calling node d) ∈ s.sends →
    s.dispatched[n]? = some d ∧ nodes.lookup d.event.source = some node
  sending : ∀ n output, (n, SendPhase.sending output) ∈ s.sends →
    Sent nodes s.dispatched trace n output
  output : ∀ n output, s.output = some (n, output) → Sent nodes s.dispatched trace n output
  failure : ∀ n payment result, s.resultsProducer = .reporting n payment result ∨
    s.resultsProducer = .polled n payment result →
    Sent nodes s.dispatched trace n (.sendPaymentFailure payment result)
  tracking : ∀ n payment, (n, TrackerPhase.tracking payment) ∈ s.trackers →
    Sent nodes s.dispatched trace n (.sendPaymentSuccess payment)
  reporting : ∀ n payment result, (n, TrackerPhase.reporting payment result) ∈ s.trackers →
    s.shutdown = true ∨ Reports nodes s.dispatched trace n payment result
  polled : ∀ n payment result, (n, TrackerPhase.polled payment result) ∈ s.trackers →
    Reports nodes s.dispatched trace n payment result
  results : ∀ n payment result, s.results = some (n, payment, result) →
    Reports nodes s.dispatched trace n payment result
  holding : ∀ n payment result, s.consumer = .holding n payment result →
    Reports nodes s.dispatched trace n payment result
  recorded : ∀ n payment result, .recorded n (payment, result) ∈ trace →
    Reports nodes s.dispatched trace n payment result

namespace Traced

/-- A longer history and the shutdown signal take nothing away. -/
theorem grow (h : Traced nodes trace s) {dispatched : List Dispatch} {shutdown : Bool}
    (hdispatched : s.dispatched <+: dispatched) (hsignal : s.shutdown = true → shutdown = true)
    (he : ∀ n payment result, e = .recorded n (payment, result) →
      Reports nodes s.dispatched trace n payment result) :
    Traced nodes (trace ++ [e]) { s with dispatched, shutdown } where
  calling n node d hmem :=
    ⟨getElem?_of_isPrefix hdispatched (h.calling n node d hmem).1, (h.calling n node d hmem).2⟩
  sending n output hmem := (h.sending n output hmem).mono hdispatched
  output n output hmem := (h.output n output hmem).mono hdispatched
  failure n payment result hmem := (h.failure n payment result hmem).mono hdispatched
  tracking n payment hmem := (h.tracking n payment hmem).mono hdispatched
  reporting n payment result hmem :=
    (h.reporting n payment result hmem).imp hsignal fun hreports => hreports.mono hdispatched
  polled n payment result hmem := (h.polled n payment result hmem).mono hdispatched
  results n payment result hmem := (h.results n payment result hmem).mono hdispatched
  holding n payment result hmem := (h.holding n payment result hmem).mono hdispatched
  recorded n payment result hmem := by
    rcases List.mem_append.mp hmem with hmem | hmem
    · exact (h.recorded n payment result hmem).mono hdispatched
    · exact (he n payment result (List.mem_singleton.mp hmem).symm).mono hdispatched

/-- An event that is not a record adds no obligation. -/
theorem extend (h : Traced nodes trace s) {dispatched : List Dispatch} {shutdown : Bool}
    (hdispatched : s.dispatched <+: dispatched) (hsignal : s.shutdown = true → shutdown = true)
    (he : recordings [e] = []) :
    Traced nodes (trace ++ [e]) { s with dispatched, shutdown } := by
  refine h.grow hdispatched hsignal ?_
  rintro n payment result rfl
  cases he

/-- An event that records nothing leaves all traces as they are. -/
theorem event (h : Traced nodes trace s) (he : recordings [e] = []) : Traced nodes (trace ++ [e]) s :=
  h.extend (List.prefix_refl _) id he

/-- The producer starts the trace of a payment. -/
theorem producerStep (h : Traced nodes trace s) (hstep : ProducerStep clock nodes s e s') :
    Traced nodes (trace ++ [e]) s' := by
  cases hstep with
  | poll | leave | pop | pollSleep | leaveSleep | pending | fail =>
    exact { h.event (e := .internal) rfl with }
  | trigger =>
    exact { h.extend (e := .internal) (List.prefix_refl _) (fun _ => rfl) rfl with }
  | @dispatch event wait delay p p' now time node _ _ _ _ hnode =>
    have hext : Traced nodes (trace ++ [.dispatched ⟨event, time⟩])
        { s with dispatched := s.dispatched ++ [⟨event, time⟩] } :=
      h.extend (List.prefix_append s.dispatched [⟨event, time⟩]) id rfl
    refine { hext with calling := ?_, sending := ?_ }
    · intro n node' d hmem
      rcases List.mem_append.mp hmem with hmem | hmem
      · exact hext.calling n node' d hmem
      · rw [List.mem_singleton, Prod.mk.injEq, SendPhase.calling.injEq] at hmem
        obtain ⟨rfl, rfl, rfl⟩ := hmem
        exact ⟨List.getElem?_concat_length, hnode⟩
    · intro n output hmem
      rcases List.mem_append.mp hmem with hmem | hmem
      · exact hext.sending n output hmem
      · simp at hmem

/-- A send task puts out what the call has returned. -/
theorem sendStep (h : Traced nodes trace s) (hstep : SendStep s e s') :
    Traced nodes (trace ++ [e]) s' := by
  have hext (he : recordings [e] = []) : Traced nodes (trace ++ [e]) s := h.event he
  cases hstep with
  | @sent before after n node d outcome output hsends houtput =>
    -- the task that has been answered turns its call into an output
    refine { hext rfl with calling := ?_, sending := ?_ }
    · intro k node' d' hmem
      rcases eq_or_mem_of_mem_replaced hsends hmem with heq | hmem
      · simp at heq
      · exact h.calling k node' d' hmem
    · intro k output' hmem
      rcases eq_or_mem_of_mem_replaced hsends hmem with heq | hmem
      · rw [Prod.mk.injEq, SendPhase.sending.injEq] at heq
        obtain ⟨rfl, rfl⟩ := heq
        obtain ⟨hd, hnode⟩ := h.calling k node d (by simp [hsends])
        exact ⟨d, node, outcome, hd, hnode, by simp, houtput⟩
      · exact (hext rfl).sending k output' hmem
  | fail hsends | closed hsends =>
    exact { hext rfl with
      calling := fun k node d hmem => h.calling k node d (mem_of_mem_removed hsends hmem)
      sending := fun k output hmem => (hext rfl).sending k output (mem_of_mem_removed hsends hmem) }
  | @send before after n output hsends =>
    refine { hext rfl with
      calling := fun k node d hmem => h.calling k node d (mem_of_mem_removed hsends hmem)
      sending := fun k output hmem => (hext rfl).sending k output (mem_of_mem_removed hsends hmem)
      output := ?_ }
    intro k output' hout
    rw [Option.some.injEq, Prod.mk.injEq] at hout
    obtain ⟨rfl, rfl⟩ := hout
    exact (hext rfl).sending n output (by simp [hsends])
  | trigger =>
    exact { h.extend (List.prefix_refl _) (fun _ => rfl) rfl with }

/-- The results producer passes on what has been put out. -/
theorem resultsProducerStep (h : Traced nodes trace s) (hstep : ResultsProducerStep nodes s e s') :
    Traced nodes (trace ++ [e]) s' := by
  have hext (he : recordings [e] = []) : Traced nodes (trace ++ [e]) s := h.event he
  cases hstep with
  | @track n payment hphase hout =>
    -- what was in the output channel is now what the tracker works on
    refine { hext rfl with output := ?_, tracking := ?_, reporting := ?_, polled := ?_ }
    · intro k output hnone
      cases hnone
    · intro k payment' hmem
      rcases List.mem_append.mp hmem with hmem | hmem
      · exact (hext rfl).tracking k payment' hmem
      · rw [List.mem_singleton, Prod.mk.injEq, TrackerPhase.tracking.injEq] at hmem
        obtain ⟨rfl, rfl⟩ := hmem
        exact (hext rfl).output k _ hout
    · intro k payment' result hmem
      rcases List.mem_append.mp hmem with hmem | hmem
      · exact (hext rfl).reporting k payment' result hmem
      · simp at hmem
    · intro k payment' result hmem
      rcases List.mem_append.mp hmem with hmem | hmem
      · exact (hext rfl).polled k payment' result hmem
      · simp at hmem
  | missingNode | leave | closed =>
    exact { hext rfl with
      output := fun k output hnone => by cases hnone
      failure := fun k payment result hphase => by simp at hphase }
  | @report n payment result hphase hout =>
    refine { hext rfl with output := ?_, failure := ?_ }
    · intro k output hnone
      cases hnone
    · intro k payment' result' hphase
      rcases hphase with hphase | hphase
      · rw [ResultsProducerPhase.reporting.injEq] at hphase
        obtain ⟨rfl, rfl, rfl⟩ := hphase
        exact (hext rfl).output n _ hout
      · cases hphase
  | finish =>
    exact { hext rfl with failure := fun k payment result hphase => by simp at hphase }
  | @poll n payment result hphase =>
    refine { hext rfl with failure := ?_ }
    intro k payment' result' hphase'
    rcases hphase' with hphase' | hphase'
    · cases hphase'
    · rw [ResultsProducerPhase.polled.injEq] at hphase'
      obtain ⟨rfl, rfl, rfl⟩ := hphase'
      exact (hext rfl).failure n payment result (Or.inl hphase)
  | @send n payment result hphase =>
    -- the failure goes into the results channel as it is
    refine { hext rfl with failure := ?_, results := ?_ }
    · intro k payment' result' hphase'
      simp at hphase'
    · intro k payment' result' hres
      rw [Option.some.injEq, Prod.mk.injEq, Prod.mk.injEq] at hres
      obtain ⟨rfl, rfl, rfl⟩ := hres
      exact Or.inl ((hext rfl).failure n payment result (Or.inr hphase))
  | @pending n payment result hphase =>
    refine { hext rfl with failure := ?_ }
    intro k payment' result' hphase'
    rcases hphase' with hphase' | hphase'
    · rw [ResultsProducerPhase.reporting.injEq] at hphase'
      obtain ⟨rfl, rfl, rfl⟩ := hphase'
      exact (hext rfl).failure n payment result (Or.inr hphase)
    · cases hphase'
  | exit =>
    exact { h.extend (List.prefix_refl _) (fun hsignal => by rw [hsignal, Bool.true_or]) rfl with
      failure := fun k payment result hphase => by simp at hphase }

/-- A tracker goes over to `phase`, whose own obligation is met; the other trackers stay. -/
theorem tracker (h : Traced nodes trace s) {before after : List (Nat × TrackerPhase)}
    {x : Nat × TrackerPhase} {n : Nat} {phase : TrackerPhase}
    (htrackers : s.trackers = before ++ x :: after)
    (htracking : ∀ payment, phase = .tracking payment →
      Sent nodes s.dispatched trace n (.sendPaymentSuccess payment))
    (hreporting : ∀ payment result, phase = .reporting payment result →
      s.shutdown = true ∨ Reports nodes s.dispatched trace n payment result)
    (hpolled : ∀ payment result, phase = .polled payment result →
      Reports nodes s.dispatched trace n payment result) :
    Traced nodes trace { s with trackers := before ++ (n, phase) :: after } where
  calling := h.calling
  sending := h.sending
  output := h.output
  failure := h.failure
  tracking k payment hmem := by
    rcases eq_or_mem_of_mem_replaced htrackers hmem with heq | hmem
    · obtain ⟨rfl, hphase⟩ := Prod.mk.inj heq
      exact htracking payment hphase.symm
    · exact h.tracking k payment hmem
  reporting k payment result hmem := by
    rcases eq_or_mem_of_mem_replaced htrackers hmem with heq | hmem
    · obtain ⟨rfl, hphase⟩ := Prod.mk.inj heq
      exact hreporting payment result hphase.symm
    · exact h.reporting k payment result hmem
  polled k payment result hmem := by
    rcases eq_or_mem_of_mem_replaced htrackers hmem with heq | hmem
    · obtain ⟨rfl, hphase⟩ := Prod.mk.inj heq
      exact hpolled payment result hphase.symm
    · exact h.polled k payment result hmem
  results := h.results
  holding := h.holding
  recorded := h.recorded

/-- A tracker ends; the others stay. -/
theorem untrack (h : Traced nodes trace s) {before after : List (Nat × TrackerPhase)}
    {x : Nat × TrackerPhase} (htrackers : s.trackers = before ++ x :: after) :
    Traced nodes trace { s with trackers := before ++ after } :=
  { h with
    tracking := fun k payment hmem => h.tracking k payment (mem_of_mem_removed htrackers hmem)
    reporting := fun k payment result hmem =>
      h.reporting k payment result (mem_of_mem_removed htrackers hmem)
    polled := fun k payment result hmem => h.polled k payment result (mem_of_mem_removed htrackers hmem) }

/-- A tracker reports what tracking has returned. -/
theorem trackerStep (h : Traced nodes trace s) (hstep : TrackerStep s e s') :
    Traced nodes (trace ++ [e]) s' := by
  have hext (he : recordings [e] = []) : Traced nodes (trace ++ [e]) s := h.event he
  cases hstep with
  | @tracked before after n payment outcome htrackers =>
    refine (hext rfl).tracker htrackers (fun _ hphase => by cases hphase) ?_
      (fun _ _ hphase => by cases hphase)
    intro payment' result hphase
    obtain ⟨rfl, rfl⟩ := TrackerPhase.reporting.inj hphase
    exact Or.inr (Or.inr ⟨(hext rfl).tracking n payment (by simp [htrackers]), outcome, by simp, rfl⟩)
  | abandoned htrackers hsignal =>
    exact (hext rfl).tracker htrackers (fun _ hphase => by cases hphase)
      (fun _ _ _ => Or.inl hsignal) (fun _ _ hphase => by cases hphase)
  | leave htrackers | closed htrackers => exact (hext rfl).untrack htrackers
  | @poll before after n payment result htrackers hsignal =>
    refine (hext rfl).tracker htrackers (fun _ hphase => by cases hphase)
      (fun _ _ hphase => by cases hphase) ?_
    intro payment' result' hphase
    obtain ⟨rfl, rfl⟩ := TrackerPhase.polled.inj hphase
    -- the signal has not been raised, so that the result is the node's own
    rcases (hext rfl).reporting n payment result (by simp [htrackers]) with hraised | hreports
    · rw [hsignal] at hraised
      cases hraised
    · exact hreports
  | @send before after n payment result htrackers =>
    refine { (hext rfl).untrack htrackers with results := ?_ }
    intro k payment' result' hres
    rw [Option.some.injEq, Prod.mk.injEq, Prod.mk.injEq] at hres
    obtain ⟨rfl, rfl, rfl⟩ := hres
    exact (hext rfl).polled n payment result (by simp [htrackers])
  | @pending before after n payment result htrackers =>
    refine (hext rfl).tracker htrackers (fun _ hphase => by cases hphase) ?_
      (fun _ _ hphase => by cases hphase)
    intro payment' result' hphase
    obtain ⟨rfl, rfl⟩ := TrackerPhase.reporting.inj hphase
    exact Or.inr ((hext rfl).polled n payment result (by simp [htrackers]))

/-- The consumer records what has been reported. -/
theorem consumerStep (h : Traced nodes trace s) (hstep : ConsumerStep csv s e s') :
    Traced nodes (trace ++ [e]) s' := by
  have hext (he : recordings [e] = []) : Traced nodes (trace ++ [e]) s := h.event he
  cases hstep with
  | start | leave | poll | finish | pending =>
    exact { hext rfl with holding := fun n payment result hphase => by cases hphase }
  | startFailed | recordFailed | close | closeFailed =>
    exact { hext rfl with
      results := fun n payment result hres => by cases hres
      holding := fun n payment result hphase => by cases hphase }
  | @receive n payment result hphase hres =>
    refine { hext rfl with
      results := fun n payment result hres => by cases hres
      holding := ?_ }
    intro k payment' result' hholding
    rw [ConsumerPhase.holding.injEq] at hholding
    obtain ⟨rfl, rfl, rfl⟩ := hholding
    exact (hext rfl).results n payment result hres
  | @record n payment result writer hphase =>
    -- the record is what the consumer held
    have hgrow : Traced nodes (trace ++ [.recorded n (payment, result)]) s := by
      refine h.grow (List.prefix_refl _) id ?_
      intro k payment' result' heq
      rw [TaskEvent.recorded.injEq, Prod.mk.injEq] at heq
      obtain ⟨rfl, rfl, rfl⟩ := heq
      exact h.holding n payment result hphase
    exact { hgrow with holding := fun k payment result hholding => by cases hholding }
  | exit =>
    exact { h.extend (List.prefix_refl _) (fun hsignal => by rw [hsignal, Bool.true_or]) rfl with
      holding := fun n payment result hphase => by cases hphase }

/-- Every step keeps the traces of all payments. -/
theorem step (h : Traced nodes trace s) (hstep : SimulationStep clock csv nodes s e s') :
    Traced nodes (trace ++ [e]) s' := by
  cases hstep with
  | producer hstep => exact h.producerStep hstep
  | send hstep => exact h.sendStep hstep
  | resultsProducer hstep => exact h.resultsProducerStep hstep
  | tracker hstep => exact h.trackerStep hstep
  | consumer hstep => exact h.consumerStep hstep
  | background hstep =>
    cases hstep with
    | log => exact h.event rfl
    | leaveLogger | leaveTimeout => exact { h.event (e := .internal) rfl with }
    | timedOut => exact { h.extend (e := .timedOut) (List.prefix_refl _) (fun _ => rfl) rfl with }
    | shutdown => exact { h.extend (e := .shutdown) (List.prefix_refl _) (fun _ => rfl) rfl with }

end Traced

/-- So every payment can be traced back in every run. -/
theorem run_traced {p : Producer γ} {now : SystemTime} {writeResults : Option UInt32}
    {timeout : Bool}
    (h : SimulationRun clock csv nodes (.start p now writeResults timeout) trace s) :
    Traced nodes trace s := by
  refine h.invariant (I := Traced nodes) ?_ fun _ _ _ _ htraced hstep => htraced.step hstep
  constructor <;> simp [Simulation.start]

/-! ## What is counted and written -/

/-- The logger has counted what has been recorded, and the results file and the batch hold it, in
order. Once the consumer has returned without an error, the batch has been flushed. -/
structure Ledger (writeResults : Option UInt32) (trace : List TaskEvent) (s : Simulation γ) :
    Prop where
  counted : s.logger.totalAttempts = UInt64.ofNat (recordings trace).length
  starting : ∀ config, s.consumer = .starting config →
    config = writeResults ∧ s.writer = none ∧ recordings trace = []
  created : (∀ config, s.consumer ≠ .starting config) → s.writer.isSome = writeResults.isSome
  accepted : ∀ w, s.writer = some w → w.writer.accepted = (recordings trace).map Prod.snd
  flushed : s.consumer.ended = true → ∀ w, s.writer = some w → w.writer.file = w.writer.accepted

/-- A new writer has accepted nothing. -/
theorem accepted_createWriter {config : Option UInt32} {writer : Option BatchedWriter}
    (h : createWriter csv config = .ok writer) :
    writer.isSome = config.isSome ∧ ∀ w, writer = some w → w.writer.accepted = [] := by
  cases config with
  | none =>
    obtain rfl := Except.ok.inj h
    exact ⟨rfl, fun w hw => by cases hw⟩
  | some batchSize =>
    simp only [createWriter, BatchedWriter.new] at h
    by_cases hzero : batchSize = 0
    · rw [if_pos hzero] at h
      cases h
    · rw [if_neg hzero] at h
      cases hpath : csv.fromPath with
      | error e =>
        rw [hpath] at h
        cases h
      | ok u =>
        rw [hpath] at h
        obtain rfl := Except.ok.inj h
        refine ⟨rfl, fun w hw => ?_⟩
        obtain rfl := Option.some.inj hw
        rfl

/-- A record that is queued has been accepted after those before. -/
theorem accepted_queueRecord {writer writer' : Option BatchedWriter} {record : Record}
    (h : queueRecord csv writer record = (.ok (), writer')) :
    writer'.isSome = writer.isSome ∧ ∀ w', writer' = some w' →
      ∃ w, writer = some w ∧ w'.writer.accepted = w.writer.accepted ++ [record] := by
  cases writer with
  | none =>
    obtain rfl := (Prod.mk.inj h).2
    exact ⟨rfl, fun w hw => by cases hw⟩
  | some w =>
    obtain ⟨hres, rfl⟩ := Prod.mk.inj h
    refine ⟨rfl, fun w' hw' => ⟨w, rfl, ?_⟩⟩
    obtain rfl := Option.some.inj hw'
    exact BatchedWriter.accepted_queue (Prod.ext hres rfl)

/-- A writer that is closed has all that it has accepted in its file. -/
theorem accepted_closeWriter {writer writer' : Option BatchedWriter}
    (h : closeWriter csv writer = (.ok (), writer')) :
    writer'.isSome = writer.isSome ∧ ∀ w', writer' = some w' →
      w'.writer.file = w'.writer.accepted ∧
        ∃ w, writer = some w ∧ w'.writer.accepted = w.writer.accepted := by
  cases writer with
  | none =>
    obtain rfl := (Prod.mk.inj h).2
    exact ⟨rfl, fun w hw => by cases hw⟩
  | some w =>
    obtain ⟨hres, rfl⟩ := Prod.mk.inj h
    refine ⟨rfl, fun w' hw' => ?_⟩
    obtain rfl := Option.some.inj hw'
    have haccepted := BatchedWriter.accepted_write csv w true
    exact ⟨(BatchedWriter.file_of_write (Prod.ext hres rfl)).trans haccepted.symm, w, rfl, haccepted⟩

namespace Ledger

variable {writeResults : Option UInt32}

theorem recordings_of_quiet (he : recordings [e] = []) :
    recordings (trace ++ [e]) = recordings trace := by
  rw [recordings_append, he, List.append_nil]

/-- A step that records nothing and leaves logger and writer alone. -/
theorem keep (h : Ledger writeResults trace s) (he : recordings [e] = [])
    (hlogger : s'.logger = s.logger) (hwriter : s'.writer = s.writer)
    (hstarting : ∀ config, s'.consumer = .starting config ↔ s.consumer = .starting config)
    (hended : s'.consumer.ended = true → s.consumer.ended = true) :
    Ledger writeResults (trace ++ [e]) s' := by
  constructor
  · rw [hlogger, recordings_of_quiet he]
    exact h.counted
  · intro config hconfig
    rw [hwriter, recordings_of_quiet he]
    exact h.starting config ((hstarting config).mp hconfig)
  · intro hconfig
    rw [hwriter]
    exact h.created fun config hc => hconfig config ((hstarting config).mpr hc)
  · rw [hwriter, recordings_of_quiet he]
    exact h.accepted
  · intro hend
    rw [hwriter]
    exact h.flushed (hended hend)

/-- The consumer gives the writer what it records. -/
theorem consumerStep (h : Ledger writeResults trace s) (hstep : ConsumerStep csv s e s')
    (he : e ≠ .writerFailed) : Ledger writeResults (trace ++ [e]) s' := by
  cases hstep with
  | @start config writer hphase hnew =>
    obtain ⟨rfl, -, hnone⟩ := h.starting config hphase
    obtain ⟨hsome, haccepted⟩ := accepted_createWriter hnew
    refine
      { counted := ?_
        starting := fun config hconfig => by cases hconfig
        created := fun _ => hsome
        accepted := ?_
        flushed := fun hended => by cases hended }
    · rw [recordings_of_quiet rfl]
      exact h.counted
    · intro w hw
      rw [recordings_of_quiet rfl, hnone]
      exact haccepted w hw
  | startFailed | recordFailed | closeFailed => exact absurd rfl he
  | leave hphase | poll hphase | receive hphase | finish hphase | pending hphase =>
    exact h.keep rfl rfl rfl (fun config => by simp [hphase]) (fun hended => by cases hended)
  | @record n payment result writer hphase hqueue =>
    obtain ⟨hsome, hqueued⟩ := accepted_queueRecord hqueue
    refine
      { counted := ?_
        starting := fun config hconfig => by cases hconfig
        created := fun _ => hsome.trans (h.created (by simp [hphase]))
        accepted := ?_
        flushed := fun hended => by cases hended }
    -- the counters wrap around just as the length does
    · rw [PaymentResultLogger.totalAttempts_reportResult, h.counted, recordings_append,
        List.length_append]
      exact (UInt64.ofNat_add _ _).symm
    · intro w' hw'
      obtain ⟨w, hw, haccepted⟩ := hqueued w' hw'
      rw [haccepted, h.accepted w hw, recordings_append, List.map_append]
      rfl
  | @close writer hphase hclose =>
    obtain ⟨hsome, hclosed⟩ := accepted_closeWriter hclose
    refine
      { counted := ?_
        starting := fun config hconfig => by cases hconfig
        created := fun _ => hsome.trans (h.created (by simp [hphase]))
        accepted := ?_
        flushed := fun _ w' hw' => (hclosed w' hw').1 }
    · rw [recordings_of_quiet rfl]
      exact h.counted
    · intro w' hw'
      obtain ⟨-, w, hw, haccepted⟩ := hclosed w' hw'
      rw [haccepted, recordings_of_quiet rfl]
      exact h.accepted w hw
  | exit hphase =>
    exact h.keep rfl rfl rfl (fun config => by simp [hphase]) (fun _ => by rw [hphase]; rfl)

/-- Every step keeps the ledger, unless the writer fails. -/
theorem step (h : Ledger writeResults trace s) (hstep : SimulationStep clock csv nodes s e s')
    (he : e ≠ .writerFailed) : Ledger writeResults (trace ++ [e]) s' := by
  rcases hstep.consumer_or_frame with hstep | ⟨hconsumer, hlogger, hwriter, hrecordings⟩
  · exact h.consumerStep hstep he
  · exact h.keep hrecordings hlogger hwriter (fun config => by rw [hconsumer])
      fun hended => hconsumer ▸ hended

end Ledger

/-- So in every run without an error of the writer it has accepted what was recorded. -/
theorem run_ledger {p : Producer γ} {now : SystemTime} {writeResults : Option UInt32}
    {timeout : Bool}
    (h : SimulationRun clock csv nodes (.start p now writeResults timeout) trace s)
    (hwriter : .writerFailed ∉ trace) : Ledger writeResults trace s := by
  have hrun := h.and_of_forall (P := fun e => e ≠ .writerFailed)
    fun e he heq => hwriter (heq ▸ he)
  refine hrun.invariant (I := Ledger writeResults) ?_ fun _ _ _ _ hledger hstep =>
    hledger.step hstep.1 hstep.2
  exact
    { counted := rfl
      starting := fun config hconfig => ⟨(ConsumerPhase.starting.inj hconfig).symm, rfl, rfl⟩
      created := fun hconfig => absurd rfl (hconfig writeResults)
      accepted := fun w hw => by cases hw
      flushed := fun hended => by cases hended }

end SimLn
