import SimLn.Scheduler.Trackers

/-!
# SimLn — every source on its own schedule

Seen on its own, a source pays at the partial sums of the delays it draws (`ownSchedule`), until
it has met its count. `Scheduled` is the invariant that makes the one heap keep the schedules of
all sources at once: no queued event lies before the current time, at most one event of each source
is queued, and what a source has paid together with the event it has queued is its own schedule.

The invariant needs the sources to be distinct, the amounts to be non-zero and the delays to be
whole seconds that `f64` represents: then a sleep ends exactly when the popped event is due.
-/

namespace SimLn

open Lib

variable {γ : Type}

/-! ## The schedule of one source -/

/-- The times at which a node pays by itself: after each delay from the time before. -/
def ownSchedule (start : SystemTime) : List Duration → List SystemTime
  | [] => []
  | delay :: delays => (start + delay) :: ownSchedule (start + delay) delays

@[simp] theorem ownSchedule_nil (start : SystemTime) : ownSchedule start [] = [] := rfl

theorem ownSchedule_cons (start : SystemTime) (delay : Duration) (delays : List Duration) :
    ownSchedule start (delay :: delays) = (start + delay) :: ownSchedule (start + delay) delays :=
  rfl

@[simp] theorem length_ownSchedule (start : SystemTime) (delays : List Duration) :
    (ownSchedule start delays).length = delays.length := by
  induction delays generalizing start with
  | nil => rfl
  | cons delay delays ih => simp [ownSchedule_cons, ih]

/-- Delays that are not zero make the times increase. -/
theorem ownSchedule_increases (start : SystemTime) {delays : List Duration}
    (hpos : ∀ delay ∈ delays, 0 < delay) :
    (∀ t ∈ ownSchedule start delays, start < t) ∧ (ownSchedule start delays).Pairwise (· < ·) := by
  induction delays generalizing start with
  | nil => simp
  | cons delay delays ih =>
    obtain ⟨hlater, hrest⟩ := ih (start + delay) fun d hd => hpos d (by simp [hd])
    have hdelay : (0 : ℤ) < delay := Int.natCast_pos.mpr (hpos delay (by simp))
    have hlt : start < start + delay := lt_add_of_pos_right start hdelay
    rw [ownSchedule_cons]
    refine ⟨fun t ht => ?_, List.pairwise_cons.mpr ⟨hlater, hrest⟩⟩
    rcases List.mem_cons.mp ht with rfl | ht
    · exact hlt
    · exact hlt.trans (hlater t ht)

/-- One more delay puts the next time after the last. Induction on the delays before. -/
theorem ownSchedule_snoc {start last : SystemTime} {delays : List Duration}
    {times : List SystemTime} (delay : Duration)
    (h : ownSchedule start delays = times ++ [last]) :
    ownSchedule start (delays ++ [delay]) = times ++ [last] ++ [last + delay] := by
  induction delays generalizing start times with
  | nil => simp at h
  | cons d ds ih =>
    rw [ownSchedule_cons] at h
    rw [List.cons_append, ownSchedule_cons]
    cases times with
    | nil =>
      obtain ⟨rfl, hds⟩ := List.cons.inj h
      have hnil : ds = [] := List.eq_nil_of_length_eq_zero (by simpa using congrArg List.length hds)
      simp [hnil, ownSchedule_cons]
    | cons t ts =>
      obtain ⟨rfl, hds⟩ := List.cons.inj h
      rw [ih hds]
      rfl

/-! ## Reading delays -/

@[simp] theorem delaysOf_append (source : PublicKey) (log log' : List Activity) :
    delaysOf source (log ++ log') = delaysOf source log ++ delaysOf source log' := by
  simp [delaysOf]

@[simp] theorem delaysOf_nil (source : PublicKey) : delaysOf source [] = [] := rfl

@[simp] theorem delaysOf_stopped (source other : PublicKey) (log : List Activity) :
    delaysOf source (.stopped other :: log) = delaysOf source log := rfl

@[simp] theorem delaysOf_dispatched (source : PublicKey) (payment : Dispatch)
    (log : List Activity) :
    delaysOf source (.dispatched payment :: log) = delaysOf source log := rfl

@[simp] theorem delaysOf_scheduled_self (source : PublicKey) (delay : Duration)
    (log : List Activity) :
    delaysOf source (.scheduled source delay :: log) = delay :: delaysOf source log := by
  simp [delaysOf]

/-- The delays of one source do not show what another waits. -/
theorem delaysOf_scheduled_of_ne {source other : PublicKey} (h : other ≠ source)
    (delay : Duration) (log : List Activity) :
    delaysOf source (.scheduled other delay :: log) = delaysOf source log := by
  simp [delaysOf, h]

/-! ## What is asked of an executor -/

namespace ExecutorKit

/-- The delays are whole seconds, few enough for `f64` to represent their number. -/
def WholeSeconds (ex : ExecutorKit γ) : Prop :=
  ∀ completed delay, ex.Delays completed delay →
    ∃ secs ≤ 2 ^ 53, delay = Duration.fromSecs secs

/-- No amount is zero. -/
def NonZero (ex : ExecutorKit γ) : Prop :=
  ∀ destination amount, ex.Pays destination amount → amount ≠ 0

/-- A list of delays that the executor can draw one after the other, the start delay first. -/
def Draws (ex : ExecutorKit γ) (delays : List Duration) : Prop :=
  ∀ i delay, delays[i]? = some delay → ex.Delays i delay

/-- One more delay that the executor may draw. -/
theorem Draws.snoc {ex : ExecutorKit γ} {delays : List Duration} {delay : Duration}
    (h : ex.Draws delays) (hdelay : ex.Delays delays.length delay) :
    ex.Draws (delays ++ [delay]) := by
  intro i d hd
  rw [List.getElem?_append] at hd
  split at hd
  · exact h i d hd
  · rw [List.getElem?_singleton] at hd
    split at hd
    next hi =>
      cases hd
      rwa [show i = delays.length by omega]
    · cases hd

theorem Draws.nil (ex : ExecutorKit γ) : ex.Draws [] := fun i d hd => by simp at hd

/-- No time of a schedule with a count that the executor can draw, up to the event that is generated
after the last payment, is past the last one that can be represented. -/
def Fits (ex : ExecutorKit γ) (start : SystemTime) : Prop :=
  ∀ c delays, ex.count = some c → ex.Draws delays → delays.length ≤ c + 1 →
    ∀ t ∈ ownSchedule start delays, t < SystemTime.limit

end ExecutorKit

/-! ## The invariant -/

/-- Payments are ordered by the time of their dispatch, then by the source node's public key. -/
def Dispatch.key (d : Dispatch) : SystemTime ×ₗ PublicKey := toLex (d.time, d.event.source)

/-- One source keeps its own schedule: its payments so far and one pending time make up the
schedule of the delays it has drawn, and its one queued event is due then, unless the event was
dropped because the count was met. -/
structure OnSchedule (start : SystemTime) (log : List Activity) (p : Producer γ)
    (ex : ExecutorKit γ) : Prop where
  tracker : p.paymentsTracker.lookup ex.source
    = some ⟨ex, (dispatchesOf ex.source log).length⟩
  draws : ex.Draws (delaysOf ex.source log)
  position : ∃ pending,
    ownSchedule start (delaysOf ex.source log)
      = (dispatchesOf ex.source log).map (·.time) ++ [pending] ∧
    ((∃ e ∈ p.heap.toList, e.source = ex.source ∧ e.executionTime = pending) ∨
      (∀ e ∈ p.heap.toList, e.source ≠ ex.source) ∧
        ex.count = some (dispatchesOf ex.source log).length)

/-- All sources keep their own schedules on the one heap and the one clock. -/
structure Scheduled (executors : List (ExecutorKit γ)) (start : SystemTime) (log : List Activity)
    (s : LoopState γ) : Prop where
  onSchedule : ∀ ex ∈ executors, OnSchedule start log s.producer ex
  known : ∀ e ∈ s.producer.heap.toList, ∃ ex ∈ executors, ex.source = e.source ∧
    ex.Pays e.destination e.amount
  single : (s.producer.heap.toList.map (·.source)).Nodup
  ahead : ∀ e ∈ s.producer.heap.toList, ∃ secs ≤ 2 ^ 53,
    e.executionTime = s.now + Duration.fromSecs secs
  paid : ∀ d ∈ dispatches log, ∃ ex ∈ executors, ex.source = d.event.source ∧
    ex.Pays d.event.destination d.event.amount
  exact : ∀ d ∈ dispatches log, d.time = d.event.executionTime
  sorted : (dispatches log).Pairwise fun d d' => d.key ≤ d'.key
  past : ∀ d ∈ dispatches log, ∀ e ∈ s.producer.heap.toList, d.key ≤ e.key

/-- What one source's schedule depends on: its tracker, its queued event, its part of the log. -/
theorem OnSchedule.frame {start : SystemTime} {log log' : List Activity} {p p' : Producer γ}
    {ex : ExecutorKit γ} (h : OnSchedule start log p ex)
    (htracker : p'.paymentsTracker.lookup ex.source = p.paymentsTracker.lookup ex.source)
    (hheap : ∀ e, e.source = ex.source → (e ∈ p'.heap.toList ↔ e ∈ p.heap.toList))
    (hpaid : dispatchesOf ex.source log' = dispatchesOf ex.source log)
    (hdelays : delaysOf ex.source log' = delaysOf ex.source log) :
    OnSchedule start log' p' ex := by
  obtain ⟨pending, htimes, hpending⟩ := h.position
  refine ⟨by rw [htracker, hpaid]; exact h.tracker, by rw [hdelays]; exact h.draws,
    pending, by rw [hdelays, hpaid]; exact htimes, ?_⟩
  rcases hpending with ⟨e, he, hsource, htime⟩ | ⟨hnone, hcount⟩
  · exact .inl ⟨e, (hheap e hsource).mpr he, hsource, htime⟩
  · refine .inr ⟨fun e he hsource => ?_, by rw [hpaid]; exact hcount⟩
    exact hnone e ((hheap e hsource).mp he) hsource

/-- The payments after a round that dispatches one. -/
theorem mem_dispatches_snoc {log : List Activity} {source : PublicKey} {delay : Duration}
    {payment d : Dispatch} :
    d ∈ dispatches (log ++ [.scheduled source delay, .dispatched payment]) ↔
      d ∈ dispatches log ∨ d = payment := by
  simp

/-- A source that pays when it is due moves on by the delay drawn for its next payment. -/
theorem OnSchedule.pay {start : SystemTime} {log : List Activity} {p p' : Producer γ}
    {ex : ExecutorKit γ} {event : PaymentEvent} {delay : Duration} (h : OnSchedule start log p ex)
    (hsource : ex.source = event.source)
    (htimes : ownSchedule start (delaysOf ex.source log)
      = (dispatchesOf ex.source log).map (·.time) ++ [event.executionTime])
    (hdelay : ex.Delays ((dispatchesOf ex.source log).length + 1) delay)
    (htracker : p'.paymentsTracker.lookup ex.source
      = some ⟨ex, (dispatchesOf ex.source log).length + 1⟩)
    (hqueued : ∃ e ∈ p'.heap.toList,
      e.source = ex.source ∧ e.executionTime = event.executionTime + delay) :
    OnSchedule start
      (log ++ [.scheduled event.source delay, .dispatched ⟨event, event.executionTime⟩]) p' ex := by
  have hpaid : dispatchesOf ex.source
      (log ++ [.scheduled event.source delay, .dispatched ⟨event, event.executionTime⟩])
        = dispatchesOf ex.source log ++ [⟨event, event.executionTime⟩] := by
    simp [dispatchesOf, hsource]
  have hdelays : delaysOf ex.source
      (log ++ [.scheduled event.source delay, .dispatched ⟨event, event.executionTime⟩])
        = delaysOf ex.source log ++ [delay] := by
    simp [hsource]
  have hlength : (delaysOf ex.source log).length = (dispatchesOf ex.source log).length + 1 := by
    simpa using congrArg List.length htimes
  refine ⟨?_, ?_, event.executionTime + delay, ?_, .inl hqueued⟩
  · rw [hpaid, List.length_append]
    exact htracker
  · rw [hdelays]
    apply h.draws.snoc
    rw [hlength]
    exact hdelay
  · rw [hdelays, hpaid, List.map_append]
    exact ownSchedule_snoc delay htimes

/-- Events are ordered by their time first. -/
theorem PaymentEvent.time_le_of_key_le {e e' : PaymentEvent} (h : e.key ≤ e'.key) :
    e.executionTime ≤ e'.executionTime := by
  rcases Prod.Lex.toLex_le_toLex.mp h with hlt | ⟨heq, -⟩
  · exact le_of_lt hlt
  · exact le_of_eq heq

/-- A source's next event comes no earlier than the one it follows. -/
theorem PaymentEvent.key_le_of_source_eq {e e' : PaymentEvent} (hsource : e.source = e'.source)
    (htime : e.executionTime ≤ e'.executionTime) : e.key ≤ e'.key := by
  rcases lt_or_eq_of_le htime with hlt | heq
  · exact Prod.Lex.toLex_le_toLex.mpr (.inl hlt)
  · exact Prod.Lex.toLex_le_toLex.mpr (.inr ⟨heq, hsource.le⟩)

namespace Scheduled

variable {executors : List (ExecutorKit γ)} {start : SystemTime} {log : List Activity}
  {s s' : LoopState γ} {events : List Activity} {event : PaymentEvent} {rest : EventHeap}

/-- The popped event is its source's next one: no other of its source is queued. -/
theorem popped (h : Scheduled executors start log s)
    (hpop : s.producer.heap.pop = some (event, rest)) :
    (∀ e ∈ rest.toList, e.source ≠ event.source) ∧
    ∃ ex ∈ executors, ex.source = event.source ∧ ex.Pays event.destination event.amount ∧
      ownSchedule start (delaysOf ex.source log)
        = (dispatchesOf ex.source log).map (·.time) ++ [event.executionTime] := by
  have hlist := MinHeap.toList_of_pop hpop
  have hother : ∀ e ∈ rest.toList, e.source ≠ event.source := (Producer.Single.pop h.single hpop).2
  refine ⟨hother, ?_⟩
  obtain ⟨ex, hex, hsource, hpays⟩ := h.known event (by simp [hlist])
  obtain ⟨pending, htimes, hpending⟩ := (h.onSchedule ex hex).position
  refine ⟨ex, hex, hsource, hpays, ?_⟩
  rcases hpending with ⟨e, he, hes, rfl⟩ | ⟨hnone, -⟩
  · rw [hlist] at he
    rcases List.mem_cons.mp he with rfl | he
    · exact htimes
    -- no other event of the source is queued
    · exact absurd (hes.trans hsource) (hother e he)
  -- a source whose event was dropped has none to pop
  · exact absurd hsource.symm (hnone event (by simp [hlist]))

/-- The sleep before the popped event ends exactly when it is due. -/
theorem wakes (h : Scheduled executors start log s)
    (hpop : s.producer.heap.pop = some (event, rest)) :
    s.now + waitTime event.executionTime s.now = event.executionTime := by
  obtain ⟨secs, hsecs, htime⟩ := h.ahead event (by simp [MinHeap.toList_of_pop hpop])
  rw [htime, waitTime_wholeSeconds hsecs]

/-- The events that are left are whole seconds after the popped one, which comes first. -/
theorem ahead_rest (h : Scheduled executors start log s)
    (hpop : s.producer.heap.pop = some (event, rest)) {e : PaymentEvent} (he : e ∈ rest.toList) :
    ∃ secs ≤ 2 ^ 53, e.executionTime = event.executionTime + Duration.fromSecs secs := by
  have hlist := MinHeap.toList_of_pop hpop
  -- both are whole seconds ahead of the clock
  obtain ⟨n, hn, hetime⟩ := h.ahead e (by simp [hlist, he])
  obtain ⟨m, -, htime⟩ := h.ahead event (by simp [hlist])
  have hle := PaymentEvent.time_le_of_key_le (MinHeap.le_of_pop hpop he)
  refine ⟨n - m, by omega, ?_⟩
  show e.executionTime = event.executionTime + _
  simp only [SystemTime, Duration.fromSecs, nanosPerSec] at hetime htime hle ⊢
  omega

/-- No payment comes after the popped event, once that is paid too. -/
theorem past_popped (h : Scheduled executors start log s)
    (hpop : s.producer.heap.pop = some (event, rest)) {delay : Duration} {d : Dispatch}
    (hd : d ∈ dispatches
      (log ++ [.scheduled event.source delay, .dispatched ⟨event, event.executionTime⟩])) :
    d.key ≤ event.key := by
  rcases mem_dispatches_snoc.mp hd with hd | rfl
  · exact h.past d hd event (by simp [MinHeap.toList_of_pop hpop])
  · exact le_rfl

/-- Executors with one source are one executor: they share the tracker. -/
theorem unique (h : Scheduled executors start log s) {ex ex' : ExecutorKit γ}
    (hex : ex ∈ executors) (hex' : ex' ∈ executors) (hsource : ex.source = ex'.source) :
    ex = ex' := by
  have htracker := (h.onSchedule ex hex).tracker
  rw [hsource, (h.onSchedule ex' hex').tracker] at htracker
  exact (congrArg ExecutorPaymentTracker.executor (Option.some.inj htracker)).symm

/-- Dropping the event of a source that has met its count. -/
theorem stop (h : Scheduled executors start log s)
    (hpop : s.producer.heap.pop = some (event, rest)) {tracker : ExecutorPaymentTracker γ}
    (htracker : s.producer.paymentsTracker.lookup event.source = some tracker)
    (hmet : tracker.executor.count = some tracker.paymentsCompleted) :
    Scheduled executors start (log ++ [.stopped event.source])
      { s with producer := s.producer.withHeap rest } := by
  have hlist := MinHeap.toList_of_pop hpop
  have hsub : ∀ e ∈ rest.toList, e ∈ s.producer.heap.toList := fun e he => by simp [hlist, he]
  obtain ⟨hother, ex, hex, hsource, -, htimes⟩ := h.popped hpop
  refine
    { onSchedule := fun ex' hex' => ?_
      known := fun e he => h.known e (hsub e he)
      single := (Producer.Single.pop h.single hpop).1
      ahead := fun e he => h.ahead e (hsub e he)
      paid := by simpa using h.paid
      exact := by simpa using h.exact
      sorted := by simpa using h.sorted
      past := fun d hd e he => h.past d (by simpa using hd) e (hsub e he) }
  by_cases hs : ex'.source = event.source
  · obtain rfl : ex' = ex := h.unique hex' hex (hs.trans hsource.symm)
    have hown := h.onSchedule ex' hex'
    rw [← hs, hown.tracker] at htracker
    cases htracker
    -- its event is gone and its count is met
    refine ⟨by simpa [dispatchesOf] using hown.tracker, by simpa using hown.draws,
      event.executionTime, by simpa [dispatchesOf] using htimes, .inr ⟨?_, ?_⟩⟩
    · intro e he
      rw [hs]
      exact hother e he
    · simpa [dispatchesOf] using hmet
  -- the schedule of another source does not see the drop
  · refine (h.onSchedule ex' hex').frame rfl (fun e he => ?_) (by simp [dispatchesOf]) (by simp)
    have hne : e ≠ event := fun heq => hs (by rw [← he, heq])
    simp [hlist, hne]

/-- Dispatching the popped event when it is due, with its source's next event queued. -/
theorem dispatch (hseconds : ∀ ex ∈ executors, ex.WholeSeconds)
    (h : Scheduled executors start log s)
    (hpop : s.producer.heap.pop = some (event, rest)) {tracker : ExecutorPaymentTracker γ}
    (htracker : s.producer.paymentsTracker.lookup event.source = some tracker)
    {delay : Duration} {p : Producer γ}
    (hgenerate : ((s.producer.withHeap rest).complete event.source tracker).generatePayment
      event.source event.executionTime = .ok (delay, p)) :
    Scheduled executors start
      (log ++ [.scheduled event.source delay, .dispatched ⟨event, event.executionTime⟩])
      { producer := p, now := event.executionTime } := by
  have hlist := MinHeap.toList_of_pop hpop
  have hsub : ∀ e ∈ rest.toList, e ∈ s.producer.heap.toList := fun e he => by simp [hlist, he]
  have hevent : event ∈ s.producer.heap.toList := by simp [hlist]
  obtain ⟨hother, ex, hex, hsource, hpays, htimes⟩ := h.popped hpop
  have hown := h.onSchedule ex hex
  rw [← hsource, hown.tracker] at htracker
  cases htracker
  have hsingle : ((s.producer.withHeap rest).complete event.source
      ⟨ex, (dispatchesOf ex.source log).length⟩).Single := (Producer.Single.pop h.single hpop).1
  have hsingleNext := hsingle.generatePayment hother hgenerate
  obtain ⟨tracker, destination, amount, g, hlookup, hdelay, hnext, -, rfl⟩ :=
    Producer.generatePayment_ok hgenerate
  rw [Producer.complete, AList.lookup_insert] at hlookup
  cases hlookup
  obtain ⟨secs, hsecs, hwhole⟩ := hseconds ex hex _ _ hdelay
  have hnextKey : event.key ≤ PaymentEvent.key
      ⟨event.source, event.executionTime + delay, destination, amount⟩ :=
    PaymentEvent.key_le_of_source_eq rfl (by simp)
  refine
    { onSchedule := fun ex' hex' => ?_
      known := ?_, single := hsingleNext, ahead := ?_, paid := ?_, exact := ?_, sorted := ?_
      past := ?_ }
  · by_cases hs : ex'.source = event.source
    · obtain rfl : ex' = ex := h.unique hex' hex (hs.trans hsource.symm)
      -- the source that pays, and then the others
      refine hown.pay hs htimes hdelay ?_ ⟨_, MinHeap.mem_push.mpr (.inl rfl), hs.symm, rfl⟩
      rw [hs]
      exact AList.lookup_insert _
    · refine (h.onSchedule ex' hex').frame ?_ (fun e he => ?_) ?_ ?_
      · exact AList.lookup_insert_ne hs
      · have hne : e ≠ event := fun heq => hs (by rw [← he, heq])
        have hnew : e ≠ ⟨event.source, event.executionTime + delay, destination, amount⟩ :=
          fun heq => hs (by rw [← he, heq])
        simp [hlist, hne, hnew]
      · simp [dispatchesOf, Ne.symm hs]
      · simp [delaysOf_scheduled_of_ne (Ne.symm hs)]
  · intro e he
    rcases MinHeap.mem_push.mp he with rfl | he
    · exact ⟨ex, hex, hsource, hnext⟩
    · exact h.known e (hsub e he)
  · intro e he
    rcases MinHeap.mem_push.mp he with rfl | he
    · exact ⟨secs, hsecs, by rw [hwhole]⟩
    · exact h.ahead_rest hpop he
  · intro d hd
    rcases mem_dispatches_snoc.mp hd with hd | rfl
    · exact h.paid d hd
    · exact ⟨ex, hex, hsource, hpays⟩
  · intro d hd
    rcases mem_dispatches_snoc.mp hd with hd | rfl
    · exact h.exact d hd
    · rfl
  · simp only [dispatches_append, dispatches_scheduled, dispatches_dispatched, dispatches_nil]
    -- every earlier payment was ahead of the events then queued
    refine List.pairwise_append.mpr ⟨h.sorted, List.pairwise_singleton _ _, fun d hd d' hd' => ?_⟩
    rw [List.mem_singleton.mp hd']
    exact h.past d hd event hevent
  · intro d hd e he
    have hbefore : d.key ≤ event.key := h.past_popped hpop hd
    rcases MinHeap.mem_push.mp he with rfl | he
    · exact hbefore.trans hnextKey
    · exact hbefore.trans (MinHeap.le_of_pop hpop he)

/-- Every round keeps all sources on their schedules. -/
theorem round (hseconds : ∀ ex ∈ executors, ex.WholeSeconds)
    (hnonzero : ∀ ex ∈ executors, ex.NonZero) (h : Scheduled executors start log s)
    (hround : Round s events s') : Scheduled executors start (log ++ events) s' := by
  cases hround with
  | stopped hpop htracker hmet => exact h.stop hpop htracker hmet
  | @skipped event rest _ _ _ hpop _ _ hamount _ =>
    obtain ⟨-, ex, hex, -, hpays, -⟩ := h.popped hpop
    exact absurd hamount (hnonzero ex hex _ _ hpays)
  | @dispatched event rest _ now _ _ hpop htracker _ _ hnow hgenerate =>
    obtain rfl : now = event.executionTime := hnow.trans (h.wakes hpop)
    exact h.dispatch hseconds hpop htracker hgenerate

/-! ## Setting up -/

/-- Only which executors there are matters, not their order. -/
theorem of_mem_iff {executors' : List (ExecutorKit γ)} (h : Scheduled executors start log s)
    (hmem : ∀ ex, ex ∈ executors' ↔ ex ∈ executors) : Scheduled executors' start log s where
  onSchedule ex hex := h.onSchedule ex ((hmem ex).mp hex)
  known e he :=
    have ⟨ex, hex, hsource⟩ := h.known e he
    ⟨ex, (hmem ex).mpr hex, hsource⟩
  single := h.single
  ahead := h.ahead
  paid d hd :=
    have ⟨ex, hex, hsource⟩ := h.paid d hd
    ⟨ex, (hmem ex).mpr hex, hsource⟩
  exact := h.exact
  sorted := h.sorted
  past := h.past

/-- Before any executor is set up, nothing is scheduled. -/
theorem empty (start : SystemTime) (g : γ) :
    Scheduled [] start []
      { producer := { heap := .empty, paymentsTracker := ∅, generators := g }, now := start } := by
  constructor <;> simp

/-- Tracking an executor with a new source and queueing its first event. -/
theorem install {p p' : Producer γ} {ex : ExecutorKit γ} {delay : Duration}
    (h : Scheduled executors start log ⟨p, start⟩) (hseconds : ex.WholeSeconds)
    (hfresh : ∀ ex' ∈ executors, ex'.source ≠ ex.source)
    (hdelays : delaysOf ex.source log = []) (hpaid : dispatches log = [])
    (hgenerate : Producer.generatePayment
      { p with paymentsTracker := p.paymentsTracker.insert ex.source ⟨ex, 0⟩ } ex.source start
        = .ok (delay, p')) :
    Scheduled (executors ++ [ex]) start (log ++ [.scheduled ex.source delay]) ⟨p', start⟩ := by
  have hunqueued : ∀ e ∈ p.heap.toList, e.source ≠ ex.source := fun e he heq =>
    have ⟨ex', hex', hsource, _⟩ := h.known e he
    hfresh ex' hex' (hsource.trans heq)
  have htracked : Producer.Single
      { p with paymentsTracker := p.paymentsTracker.insert ex.source ⟨ex, 0⟩ } := h.single
  have hsingle := htracked.generatePayment hunqueued hgenerate
  obtain ⟨tracker, destination, amount, g, hlookup, hdelay, hpays, -, rfl⟩ :=
    Producer.generatePayment_ok hgenerate
  rw [AList.lookup_insert] at hlookup
  cases hlookup
  obtain ⟨secs, hsecs, hwhole⟩ := hseconds _ _ hdelay
  have hnone : dispatches (log ++ [.scheduled ex.source delay]) = [] := by simp [hpaid]
  refine
    { onSchedule := fun ex' hex' => ?_
      known := ?_, single := hsingle, ahead := ?_
      paid := by simp [hnone], exact := by simp [hnone], sorted := by simp [hnone]
      past := by simp [hnone] }
  · rcases List.mem_append.mp hex' with hex' | hex'
    · have hs := hfresh ex' hex'
      refine (h.onSchedule ex' hex').frame ?_ (fun e he => ?_) ?_ ?_
      · exact AList.lookup_insert_ne hs
      -- the pushed event belongs to the new executor, whose source nobody else has
      · have hnew : e ≠ ⟨ex.source, start + delay, destination, amount⟩ :=
          fun heq => hs (by rw [← he, heq])
        simp [hnew]
      · simp [dispatchesOf]
      · simp [delaysOf_scheduled_of_ne (Ne.symm hs)]
    · obtain rfl := List.mem_singleton.mp hex'
      refine ⟨by simp [dispatchesOf, hnone], ?_, start + delay, ?_, .inl ?_⟩
      · simpa [hdelays] using (ExecutorKit.Draws.nil ex').snoc hdelay
      · simp [hdelays, dispatchesOf, hnone, ownSchedule_cons]
      · exact ⟨_, MinHeap.mem_push.mpr (.inl rfl), rfl, rfl⟩
  · intro e he
    rcases MinHeap.mem_push.mp he with rfl | he
    · exact ⟨ex, by simp, rfl, hpays⟩
    · obtain ⟨ex', hex', hsource⟩ := h.known e he
      exact ⟨ex', by simp [hex'], hsource⟩
  · intro e he
    rcases MinHeap.mem_push.mp he with rfl | he
    · exact ⟨secs, hsecs, by rw [hwhole]⟩
    · exact h.ahead e he

end Scheduled

/-- Setting up executors with distinct sources puts each on its schedule. Induction on the
executors that are left, with those already installed in front. -/
theorem scheduled_setupExecutors {start : SystemTime} {installed left : List (ExecutorKit γ)}
    {log log' : List Activity} {p p' : Producer γ}
    (hdistinct : ((installed ++ left).map (·.source)).Nodup)
    (hseconds : ∀ ex ∈ left, ex.WholeSeconds) (h : Scheduled installed start log ⟨p, start⟩)
    (hquiet : ∀ source, (∀ ex ∈ installed, ex.source ≠ source) → delaysOf source log = [])
    (hpaid : dispatches log = []) (hsetup : setupExecutors start left p = .ok (log', p')) :
    Scheduled (installed ++ left) start (log ++ log') ⟨p', start⟩ := by
  induction left generalizing installed log p log' with
  | nil =>
    cases hsetup
    simpa using h
  | cons ex rest ih =>
    rw [setupExecutors] at hsetup
    split at hsetup
    · cases hsetup
    next delay q hgenerate =>
      split at hsetup
      · cases hsetup
      next log'' q' hrest =>
        cases hsetup
        have hfresh : ∀ ex' ∈ installed, ex'.source ≠ ex.source := by
          intro ex' hex' heq
          rw [List.map_append, List.nodup_append] at hdistinct
          exact hdistinct.2.2 _ (List.mem_map_of_mem hex') _ (by simp) heq
        have hinstalled := h.install (hseconds ex (by simp)) hfresh (hquiet _ hfresh) hpaid
          hgenerate
        -- the installed list grows by `ex`, and the log by its first delay
        have hrun := ih (by simpa using hdistinct) (fun ex' hex' => hseconds ex' (by simp [hex']))
          hinstalled (fun source hsource => ?_) (by simp [hpaid]) hrest
        · simpa using hrun
        · have hne : ex.source ≠ source := hsource ex (by simp)
          have hlog := hquiet source fun ex' hex' => hsource ex' (by simp [hex'])
          simp [hlog, delaysOf_scheduled_of_ne hne]

section Run

variable {executors : List (ExecutorKit γ)} {start : SystemTime} {g : γ} {p : Producer γ}
  {nodes : Table PublicKey NodeInfo} {s : LoopState γ} {log₀ log : List Activity}

/-- After setting up, every executor has its first event at its time. -/
theorem scheduled_setupPaymentEvents (hdistinct : (executors.map (·.source)).Nodup)
    (hseconds : ∀ ex ∈ executors, ex.WholeSeconds)
    (hsetup : setupPaymentEvents executors start g = .ok (log₀, p)) :
    Scheduled executors start log₀ ⟨p, start⟩ := by
  have hsorted := List.perm_insertionSort
    (fun ex1 ex2 : ExecutorKit γ => ex1.source ≤ ex2.source) executors
  have h : Scheduled ([] ++ executors.insertionSort _) start ([] ++ log₀) ⟨p, start⟩ :=
    scheduled_setupExecutors ((hsorted.map _).nodup_iff.mpr hdistinct)
      (fun ex hex => hseconds ex (hsorted.mem_iff.mp hex)) (.empty start g) (fun _ _ => rfl) rfl
      hsetup
  exact h.of_mem_iff fun ex => hsorted.mem_iff.symm

/-- All sources are on their schedules in every state of the loop. -/
theorem run_scheduled (hdistinct : (executors.map (·.source)).Nodup)
    (hseconds : ∀ ex ∈ executors, ex.WholeSeconds) (hnonzero : ∀ ex ∈ executors, ex.NonZero)
    (hsetup : setupPaymentEvents executors start g = .ok (log₀, p))
    (hrun : (LoopState.iteration nodes).Run ⟨p, start⟩ log s) :
    Scheduled executors start (log₀ ++ log) s := by
  refine hrun.invariant (I := fun log s => Scheduled executors start (log₀ ++ log) s)
    (by simpa using scheduled_setupPaymentEvents hdistinct hseconds hsetup)
    fun log s events s' h hnext => ?_
  rw [← List.append_assoc]
  exact h.round hseconds hnonzero (iteration_round hnext)

end Run
end SimLn
