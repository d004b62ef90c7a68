import SimLn.Pipeline
import SimLn.Lib.Lists

/-!
# SimLn — where payments are

Between its dispatch and its record a payment is held by one task or channel at a time. Each step
moves payments on, records one or loses some; `SimulationStep.balance` is the account of it, and
`Loses` lists the steps that can lose payments.
-/

namespace SimLn

open Lib

variable {γ : Type} {clock : Clock} {csv : Csv} {nodes : Table PublicKey NodeInfo}
  {s s' : Simulation γ} {e : TaskEvent}

/-- The payments that a step creates. -/
def TaskEvent.created (s : Simulation γ) : TaskEvent → List Nat
  | .dispatched _ => [s.dispatched.length]
  | _ => []

/-- The records of a run, in order, with the numbers of their payments. -/
def recordings (trace : List TaskEvent) : List (Nat × Record) :=
  trace.filterMap fun
    | .recorded n record => some (n, record)
    | _ => none

@[simp] theorem recordings_nil : recordings [] = [] := rfl

@[simp] theorem recordings_append (trace trace' : List TaskEvent) :
    recordings (trace ++ trace') = recordings trace ++ recordings trace' :=
  List.filterMap_append

/-- The payments recorded are those of the events that say so. -/
@[simp] theorem mem_recordings {trace : List TaskEvent} {n : Nat} {record : Record} :
    (n, record) ∈ recordings trace ↔ .recorded n record ∈ trace := by
  unfold recordings
  rw [List.mem_filterMap]
  constructor
  · rintro ⟨e, he, heq⟩
    cases e <;> simp only [reduceCtorEq, Option.some.injEq, Prod.mk.injEq] at heq
    obtain ⟨rfl, rfl⟩ := heq
    exact he
  · intro he
    exact ⟨_, he, rfl⟩

/-- The number of times that payment `n` is under way or recorded. -/
def account (n : Nat) (trace : List TaskEvent) (s : Simulation γ) : Nat :=
  s.underWay.count n + ((recordings trace).map Prod.fst).count n

/-- The steps that can lose payments. -/
inductive Loses (s : Simulation γ) : TaskEvent → Prop where
  | sent (n : Nat) (e : LightningError) : Loses s (.sent n (.error e))
  | interrupted {underWay : List Nat} (h : underWay ≠ []) : Loses s (.interrupted underWay)
  | missingNode (n : Nat) : Loses s (.missingNode n)
  | closed (n : Nat) : Loses s (.closed n)
  | writerFailed : Loses s .writerFailed
  | dropped (h : s.consumer = .closing) (hresults : s.results ≠ none) : Loses s .internal

/-- Payments are moved on, recorded, or lost by a step that can lose them. -/
def Balanced (s : Simulation γ) (e : TaskEvent) (s' : Simulation γ) : Prop :=
  ∃ lost : List Nat, (lost = [] ∨ Loses s e) ∧ ∀ n,
    s'.underWay.count n + ((recordings [e]).map Prod.fst).count n + lost.count n
      = s.underWay.count n + (e.created s).count n

/-- It is enough to count each payment on its own. -/
theorem Balanced.of_eq (h : ∀ n,
    s'.underWay.count n + ((recordings [e]).map Prod.fst).count n
      = s.underWay.count n + (e.created s).count n) : Balanced s e s' :=
  ⟨[], Or.inl rfl, h⟩

/-- A step that keeps every payment where it is. -/
theorem Balanced.of_same (hsame : s'.underWay = s.underWay) (hrecorded : recordings [e] = [])
    (hcreated : e.created s = []) : Balanced s e s' := by
  apply Balanced.of_eq
  intro n
  rw [hsame, hrecorded, hcreated]
  rfl

/-! ## Where a payment is held -/

/-- Where a payment that is under way can be. -/
theorem Simulation.count_underWay (s : Simulation γ) (n : Nat) :
    s.underWay.count n = (s.sends.map Prod.fst).count n + (s.output.toList.map Prod.fst).count n
      + s.resultsProducer.payments.count n + (s.trackers.map Prod.fst).count n
      + (s.results.toList.map Prod.fst).count n + s.consumer.payments.count n := by
  simp only [Simulation.underWay, List.count_append]

/-- A payment that is being sent is under way. -/
theorem count_of_send {before after : List (Nat × SendPhase)} {n : Nat} {phase : SendPhase}
    (h : s.sends = before ++ (n, phase) :: after) : 0 < s.underWay.count n := by
  rw [Simulation.count_underWay, h, count_map_middle, List.count_cons_self]
  omega

/-- A payment that is being tracked is under way. -/
theorem count_of_tracker {before after : List (Nat × TrackerPhase)} {n : Nat}
    {phase : TrackerPhase} (h : s.trackers = before ++ (n, phase) :: after) :
    0 < s.underWay.count n := by
  rw [Simulation.count_underWay, h, count_map_middle, List.count_cons_self]
  omega

/-- A payment in the output channel is under way. -/
theorem count_of_output {n : Nat} {output : SimulationOutput} (h : s.output = some (n, output)) :
    0 < s.underWay.count n := by
  simp only [Simulation.count_underWay, h, Option.toList, List.map_cons, List.count_cons_self]
  omega

/-- A payment in the results channel is under way. -/
theorem count_of_results {n : Nat} {record : Record} (h : s.results = some (n, record)) :
    0 < s.underWay.count n := by
  simp only [Simulation.count_underWay, h, Option.toList, List.map_cons, List.count_cons_self]
  omega

/-- A payment that the results producer has in hand is under way. -/
theorem count_of_resultsProducer {n : Nat} (h : s.resultsProducer.payments = [n]) :
    0 < s.underWay.count n := by
  rw [Simulation.count_underWay, h, List.count_cons_self]
  omega

/-- Then something is under way. -/
theorem Simulation.underWay_ne_nil {n : Nat} (h : 0 < s.underWay.count n) : s.underWay ≠ [] := by
  intro hnil
  rw [hnil] at h
  exact absurd h (by simp)

/-! ## The account of a step -/

/-- The producer creates the payments that it dispatches and loses none. -/
theorem ProducerStep.balance (h : ProducerStep clock nodes s e s') : Balanced s e s' := by
  cases h with
  | poll | leave | pop | pollSleep | leaveSleep | pending | fail | trigger =>
    exact Balanced.of_same rfl rfl rfl
  | dispatch =>
    apply Balanced.of_eq
    intro n
    simp only [Simulation.count_underWay, List.map_append, List.map_cons, List.map_nil,
      List.count_append, TaskEvent.created]
    show _ + 0 = _
    omega

/-- A send task passes its payment on, or drops it with the output channel closed. -/
theorem SendStep.balance (h : SendStep s e s') : Balanced s e s' := by
  cases h with
  | sent h houtput =>
    refine Balanced.of_same ?_ rfl rfl
    simp only [Simulation.underWay, h, List.map_append, List.map_cons]
  | @fail before after n node dispatch outcome _ h houtput =>
    -- the node's call has failed, since its outcome makes `send_payment` fail
    have hloses : Loses s (.sent n outcome) := by
      cases outcome with
      | ok hash => cases houtput
      | error e => exact .sent n e
    refine ⟨[n], Or.inr hloses, fun k => ?_⟩
    simp only [Simulation.count_underWay, h, count_map_middle]
    show _ + 0 + _ = _ + 0
    omega
  | send h hfree hopen =>
    apply Balanced.of_eq
    intro k
    simp only [Simulation.count_underWay, h, hfree, count_map_middle, Option.toList, List.map_cons,
      List.map_nil, List.count_nil]
    show _ + 0 = _ + 0
    omega
  | @closed before after n output h hclosed =>
    refine ⟨[n], Or.inr (.closed n), fun k => ?_⟩
    simp only [Simulation.count_underWay, h, count_map_middle]
    show _ + 0 + _ = _ + 0
    omega
  | trigger h => exact Balanced.of_same rfl rfl rfl

/-- The results producer passes payments on until it leaves. -/
theorem ResultsProducerStep.balance (h : ResultsProducerStep nodes s e s') : Balanced s e s' := by
  cases h with
  | track h houtput =>
    apply Balanced.of_eq
    intro k
    simp only [Simulation.count_underWay, houtput, List.map_append, List.map_cons, List.count_append,
      List.map_nil, Option.toList, List.count_nil]
    show _ + 0 = _ + 0
    omega
  | @missingNode n payment h houtput =>
    refine ⟨[n], Or.inr (.missingNode n), fun k => ?_⟩
    simp only [Simulation.count_underWay, h, houtput, List.map_cons, List.map_nil, Option.toList,
      List.count_nil, ResultsProducerPhase.payments]
    show _ + 0 + _ = _ + 0
    omega
  | report h houtput =>
    apply Balanced.of_eq
    intro k
    simp only [Simulation.count_underWay, h, houtput, List.map_cons, List.map_nil, Option.toList,
      List.count_nil, ResultsProducerPhase.payments]
    show _ + 0 = _ + 0
    omega
  | finish h | poll h | pending h | exit h =>
    refine Balanced.of_same ?_ rfl rfl
    simp only [Simulation.underWay, h]
    rfl
  | @leave n payment result h hsignal =>
    -- what waits in the output channel goes with the receiver
    have hheld : 0 < s.underWay.count n := count_of_resultsProducer (by rw [h]; rfl)
    refine ⟨s.output.toList.map Prod.fst ++ [n],
      Or.inr (.interrupted (Simulation.underWay_ne_nil hheld)), fun k => ?_⟩
    simp only [Simulation.count_underWay, h, List.map_nil, Option.toList, List.count_append,
      List.count_nil, ResultsProducerPhase.payments]
    show _ + 0 + _ = _ + 0
    omega
  | send h hfree =>
    apply Balanced.of_eq
    intro k
    simp only [Simulation.count_underWay, h, hfree, List.map_cons, List.map_nil, Option.toList,
      List.count_nil, ResultsProducerPhase.payments]
    show _ + 0 = _ + 0
    omega
  | @closed n payment result h hclosed =>
    refine ⟨s.output.toList.map Prod.fst ++ [n], Or.inr (.closed n), fun k => ?_⟩
    simp only [Simulation.count_underWay, h, List.map_nil, Option.toList, List.count_append,
      List.count_nil, ResultsProducerPhase.payments]
    show _ + 0 + _ = _ + 0
    omega

/-- A tracker passes its payment on, or drops it on a shutdown. -/
theorem TrackerStep.balance (h : TrackerStep s e s') : Balanced s e s' := by
  cases h with
  | tracked h | abandoned h | poll h | pending h =>
    refine Balanced.of_same ?_ rfl rfl
    simp only [Simulation.underWay, h, List.map_append, List.map_cons]
  | @leave before after n payment result h =>
    have hheld : 0 < s.underWay.count n := count_of_tracker h
    refine ⟨[n], Or.inr (.interrupted (Simulation.underWay_ne_nil hheld)), fun k => ?_⟩
    simp only [Simulation.count_underWay, h, count_map_middle]
    show _ + 0 + _ = _ + 0
    omega
  | send h hfree =>
    apply Balanced.of_eq
    intro k
    simp only [Simulation.count_underWay, h, hfree, count_map_middle, Option.toList, List.map_cons,
      List.map_nil, List.count_nil]
    show _ + 0 = _ + 0
    omega
  | @closed before after n payment result h hclosed =>
    refine ⟨[n], Or.inr (.closed n), fun k => ?_⟩
    simp only [Simulation.count_underWay, h, count_map_middle]
    show _ + 0 + _ = _ + 0
    omega

/-- The consumer records the payments that it receives. -/
theorem ConsumerStep.balance (h : ConsumerStep csv s e s') : Balanced s e s' := by
  cases h with
  | start h | leave h | poll h | finish h | pending h | exit h =>
    refine Balanced.of_same ?_ rfl rfl
    simp only [Simulation.underWay, h]
    rfl
  | receive h hresults =>
    apply Balanced.of_eq
    intro k
    simp only [Simulation.count_underWay, h, hresults, List.map_cons, List.map_nil, Option.toList,
      List.count_nil, ConsumerPhase.payments]
    show _ + 0 = _ + 0
    omega
  | record h =>
    apply Balanced.of_eq
    intro k
    simp only [Simulation.count_underWay, h, ConsumerPhase.payments, List.count_nil]
    rfl
  -- the receiver is dropped on return, with what waits in the results channel
  | startFailed h | closeFailed h =>
    refine ⟨s.results.toList.map Prod.fst, Or.inr .writerFailed, fun k => ?_⟩
    simp only [Simulation.count_underWay, h, List.map_nil, Option.toList, List.count_nil,
      ConsumerPhase.payments]
    show _ + 0 + _ = _ + 0
    omega
  | @recordFailed n _ _ _ _ h =>
    refine ⟨n :: s.results.toList.map Prod.fst, Or.inr .writerFailed, fun k => ?_⟩
    simp only [Simulation.count_underWay, h, List.map_nil, Option.toList, List.count_nil,
      ConsumerPhase.payments, List.count_cons]
    show _ + 0 + _ = _ + 0
    omega
  | close h =>
    refine ⟨s.results.toList.map Prod.fst, ?_, fun k => ?_⟩
    · cases hresults : s.results with
      | none => exact Or.inl rfl
      | some item => exact Or.inr (.dropped h (by simp [hresults]))
    · simp only [Simulation.count_underWay, h, List.map_nil, Option.toList, List.count_nil,
        ConsumerPhase.payments]
      show _ + 0 + _ = _ + 0
      omega

/-- **The account of a step.** -/
theorem SimulationStep.balance (h : SimulationStep clock csv nodes s e s') : Balanced s e s' := by
  cases h with
  | producer h => exact h.balance
  | send h => exact h.balance
  | resultsProducer h => exact h.balance
  | tracker h => exact h.balance
  | consumer h => exact h.balance
  | background h =>
    cases h with
    | log | leaveLogger | timedOut | leaveTimeout | shutdown => exact Balanced.of_same rfl rfl rfl

/-- The history of dispatches only grows, by what the step dispatches. -/
theorem SimulationStep.dispatched (h : SimulationStep clock csv nodes s e s') :
    ((∃ d, s'.dispatched = s.dispatched ++ [d]) ∧ e.created s = [s.dispatched.length]) ∨
      (s'.dispatched = s.dispatched ∧ e.created s = []) := by
  cases h with
  | producer h =>
    cases h with
    | dispatch => exact Or.inl ⟨⟨_, rfl⟩, rfl⟩
    | _ => exact Or.inr ⟨rfl, rfl⟩
  | send h => cases h <;> exact Or.inr ⟨rfl, rfl⟩
  | resultsProducer h => cases h <;> exact Or.inr ⟨rfl, rfl⟩
  | tracker h => cases h <;> exact Or.inr ⟨rfl, rfl⟩
  | consumer h => cases h <;> exact Or.inr ⟨rfl, rfl⟩
  | background h => cases h <;> exact Or.inr ⟨rfl, rfl⟩

/-- The account of a payment after one more event. -/
theorem account_snoc (n : Nat) (trace : List TaskEvent) (s : Simulation γ) (e : TaskEvent) :
    account n (trace ++ [e]) s
      = s.underWay.count n + ((recordings [e]).map Prod.fst).count n
        + ((recordings trace).map Prod.fst).count n := by
  simp only [account, recordings_append, List.map_append, List.count_append]
  omega

/-- No payment is in two places, and none is anywhere before it is dispatched. -/
def Accounted (trace : List TaskEvent) (s : Simulation γ) : Prop :=
  ∀ n, account n trace s ≤ 1 ∧ (s.dispatched.length ≤ n → account n trace s = 0)

/-- Every step keeps the account of every payment. -/
theorem Accounted.step {trace : List TaskEvent} (h : Accounted trace s)
    (hstep : SimulationStep clock csv nodes s e s') : Accounted (trace ++ [e]) s' := by
  intro n
  obtain ⟨lost, -, hbalance⟩ := hstep.balance
  have hn := hbalance n
  obtain ⟨hle, hnew⟩ := h n
  rw [account_snoc]
  unfold account at hle hnew
  rcases hstep.dispatched with ⟨⟨d, hd⟩, hcreated⟩ | ⟨hd, hcreated⟩
  · rw [hcreated, List.count_singleton] at hn
    rw [hd, List.length_append, List.length_singleton]
    by_cases hlen : s.dispatched.length = n
    · have hzero := hnew (le_of_eq hlen)
      rw [if_pos (by simpa using hlen)] at hn
      omega
    · rw [if_neg (by simpa using hlen)] at hn
      omega
  · rw [hcreated, List.count_nil] at hn
    rw [hd]
    omega

/-- So every payment is accounted for in every run. -/
theorem run_accounted {p : Producer γ} {now : SystemTime} {writeResults : Option UInt32}
    {timeout : Bool} {trace : List TaskEvent}
    (h : SimulationRun clock csv nodes (.start p now writeResults timeout) trace s) :
    Accounted trace s :=
  h.invariant (I := Accounted) (fun _ => ⟨Nat.zero_le 1, fun _ => rfl⟩)
    fun _ _ _ _ haccounted hstep => haccounted.step hstep

/-! ## Payments that are lost -/

/-- Only the consumer records, and only it touches the records. -/
theorem SimulationStep.consumer_or_frame (h : SimulationStep clock csv nodes s e s') :
    ConsumerStep csv s e s' ∨ (s'.consumer = s.consumer ∧ s'.logger = s.logger ∧
      s'.writer = s.writer ∧ recordings [e] = []) := by
  cases h with
  | producer h => cases h <;> exact Or.inr ⟨rfl, rfl, rfl, rfl⟩
  | send h => cases h <;> exact Or.inr ⟨rfl, rfl, rfl, rfl⟩
  | resultsProducer h => cases h <;> exact Or.inr ⟨rfl, rfl, rfl, rfl⟩
  | tracker h => cases h <;> exact Or.inr ⟨rfl, rfl, rfl, rfl⟩
  | consumer h => exact Or.inl h
  | background h => cases h <;> exact Or.inr ⟨rfl, rfl, rfl, rfl⟩

/-- Once the consumer has left its loop it records nothing. -/
theorem SimulationStep.left (h : SimulationStep clock csv nodes s e s')
    (hleft : s.consumer.left = true) : s'.consumer.left = true ∧ recordings [e] = [] := by
  rcases h.consumer_or_frame with h | ⟨hconsumer, -, -, hrecordings⟩
  · cases h
    case close | closeFailed | exit => exact ⟨rfl, rfl⟩
    case start hphase _ | startFailed hphase _ | leave hphase _ | poll hphase _ |
        receive hphase _ | finish hphase _ _ _ | pending hphase _ | record hphase _ |
        recordFailed hphase _ =>
      rw [hphase] at hleft
      cases hleft
  · exact ⟨hconsumer ▸ hleft, hrecordings⟩

/-- Payment `n` has no record and will not get one. -/
structure Lost (n : Nat) (trace : List TaskEvent) (s : Simulation γ) : Prop where
  dispatched : n < s.dispatched.length
  unrecorded : ((recordings trace).map Prod.fst).count n = 0
  gone : s.underWay.count n = 0 ∨ s.consumer.left = true

/-- What is lost stays lost. -/
theorem Lost.step {n : Nat} {trace : List TaskEvent} (h : Lost n trace s)
    (hstep : SimulationStep clock csv nodes s e s') : Lost n (trace ++ [e]) s' := by
  have hlen : s.dispatched.length ≤ s'.dispatched.length ∧ (e.created s).count n = 0 := by
    rcases hstep.dispatched with ⟨⟨d, hd⟩, hcreated⟩ | ⟨hd, hcreated⟩
    · rw [hd, hcreated, List.length_append]
      refine ⟨Nat.le_add_right _ _, List.count_eq_zero_of_not_mem ?_⟩
      have := h.dispatched
      simp only [List.mem_singleton]
      omega
    · rw [hd, hcreated]
      exact ⟨le_rfl, rfl⟩
  have hunrecorded := h.unrecorded
  obtain ⟨lost, -, hbalance⟩ := hstep.balance
  have hn := hbalance n
  refine ⟨lt_of_lt_of_le h.dispatched hlen.1, ?_, ?_⟩
  · rw [recordings_append, List.map_append, List.count_append]
    rcases h.gone with hgone | hleft
    · omega
    · rw [(hstep.left hleft).2]
      exact hunrecorded
  · rcases h.gone with hgone | hleft
    · left
      omega
    · exact Or.inr (hstep.left hleft).1

/-- A task that leaves on the shutdown signal gives up a payment, if any is under way. -/
theorem SimulationStep.interrupts {underWay : List Nat}
    (h : SimulationStep clock csv nodes s (.interrupted underWay) s') (hne : underWay ≠ []) :
    ∃ n, 0 < s.underWay.count n ∧
      (s'.underWay.count n < s.underWay.count n ∨ s'.consumer.left = true) := by
  cases h with
  | producer h => cases h
  | send h => cases h
  | resultsProducer h =>
    cases h with
    | @leave n payment result h =>
      refine ⟨n, count_of_resultsProducer (by rw [h]; rfl), Or.inl ?_⟩
      simp only [Simulation.count_underWay, h, ResultsProducerPhase.payments, List.count_cons_self,
        Option.toList, List.map_nil, List.count_nil]
      omega
  | tracker h =>
    cases h with
    | @leave before after n payment result h =>
      refine ⟨n, count_of_tracker h, Or.inl ?_⟩
      simp only [Simulation.count_underWay, h, count_map_middle, List.count_cons_self]
      omega
  | consumer h =>
    cases h with
    | leave h =>
      obtain ⟨n, hn⟩ := List.exists_mem_of_ne_nil _ hne
      exact ⟨n, List.count_pos_iff.mpr hn, Or.inr rfl⟩
  | background h => cases h

/-- A consumer that leaves with payments under way loses one of them. -/
theorem lost_of_interrupted {trace : List TaskEvent} {underWay : List Nat}
    (h : Accounted trace s) (hstep : SimulationStep clock csv nodes s (.interrupted underWay) s')
    (hne : underWay ≠ []) : ∃ n, Lost n (trace ++ [.interrupted underWay]) s' := by
  obtain ⟨n, hpos, hgone⟩ := hstep.interrupts hne
  obtain ⟨hle, hnew⟩ := h n
  unfold account at hle hnew
  have hlen : n < s.dispatched.length := by
    by_contra hge
    have := hnew (not_lt.mp hge)
    omega
  have hdispatched : s'.dispatched = s.dispatched := by
    rcases hstep.dispatched with ⟨-, hcreated⟩ | ⟨hd, -⟩
    · cases hcreated
    · exact hd
  refine ⟨n, hdispatched ▸ hlen, ?_, ?_⟩
  · rw [recordings_append, List.map_append, List.count_append]
    show _ + 0 = 0
    omega
  · rcases hgone with hlt | hleft
    · left
      omega
    · exact Or.inr hleft

/-- If a task has left on the signal while a payment was under way, some payment has been lost. -/
theorem exists_lost {p : Producer γ} {now : SystemTime} {writeResults : Option UInt32}
    {timeout : Bool} {trace : List TaskEvent}
    (h : SimulationRun clock csv nodes (.start p now writeResults timeout) trace s)
    {underWay : List Nat} (hmem : .interrupted underWay ∈ trace) (hne : underWay ≠ []) :
    ∃ n, Lost n trace s := by
  induction h with
  | refl => cases hmem
  | tail hrun hstep ih =>
    rcases List.mem_append.mp hmem with hmem | hmem
    · obtain ⟨n, hlost⟩ := ih hmem
      exact ⟨n, hlost.step hstep⟩
    · obtain rfl := List.mem_singleton.mp hmem
      exact lost_of_interrupted (run_accounted hrun) hstep hne

end SimLn
