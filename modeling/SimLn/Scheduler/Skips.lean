import SimLn.Scheduler.Clocked
import SimLn.Scheduler.Defined
import Mathlib.Data.Multiset.ZeroCons

/-!
# SimLn — rounds of amount zero

A payment is slept for, and the next event of its source is counted from the reading after the sleep.
A payment of amount zero is skipped without a sleep: the next event of its source is counted from the
reading at which it happened to be popped, which depends on the events of the other sources. So a
skipped round keeps the time line of its source exactly if it is popped when it is due
(`skippedAsRound_iff`), and a run in which every round is on time keeps the time lines of all sources
(`timeline_of_onTime`).
-/

namespace SimLn

open Lib

variable {γ : Type} {clock : Clock} {nodes : Table PublicKey NodeInfo}

/-! ## One round -/

/-- What `generatePayment` pushes beside what was queued. -/
theorem Producer.generatePayment_next {p p' : Producer γ} {pubkey : PublicKey} {base : SystemTime}
    {delay : Duration} (h : p.generatePayment pubkey base = .ok (delay, p')) :
    p'.paymentsTracker = p.paymentsTracker ∧
    ∃ next : PaymentEvent, next.source = pubkey ∧ next.executionTime = base + delay ∧
      p'.heap.toList.Perm (next :: p.heap.toList) := by
  obtain ⟨destination, amount, g, -, -, rfl⟩ := Producer.generatePayment_draws h
  exact ⟨rfl, _, rfl, rfl, MinHeap.push_perm _ _⟩

/-- An event that is skipped has amount zero, and the next one is generated at once. -/
theorem Producer.popEvent_skipped {p p' : Producer γ} {now : SystemTime} {source : PublicKey}
    {delay : Duration} (h : p.popEvent nodes now = .skipped source delay p') :
    ∃ event rest, p.heap.pop = some (event, rest) ∧ event.amount = 0 ∧ source = event.source ∧
      (p.withHeap rest).generatePayment event.source now = .ok (delay, p') := by
  have hpops := p.pops_popEvent nodes now
  rw [h] at hpops
  cases hpops with
  | skipped hpop _ _ hamount hgenerate => exact ⟨_, _, hpop, hamount, rfl, hgenerate⟩

/-- An event that is slept for has an amount, and its payment counts as completed. -/
theorem Producer.popEvent_sleeping {p p' : Producer γ} {now : SystemTime} {event : PaymentEvent}
    {wait : Duration} (h : p.popEvent nodes now = .sleeping event wait p') :
    ∃ rest tracker, p.heap.pop = some (event, rest) ∧ event.amount ≠ 0 ∧
      p.paymentsTracker.lookup event.source = some tracker ∧
      wait = waitTime event.executionTime now ∧
      p' = (p.withHeap rest).complete event.source tracker := by
  have hpops := p.pops_popEvent nodes now
  rw [h] at hpops
  cases hpops with
  | sleeping hpop htracker _ _ hamount => exact ⟨_, _, hpop, hamount, htracker, rfl, rfl⟩

/-- A heap has one first event. -/
theorem popped_unique {heap : EventHeap} {event event' : PaymentEvent} {rest rest' : EventHeap}
    (h : heap.pop = some (event, rest)) (h' : heap.pop = some (event', rest')) :
    event = event' ∧ rest = rest' :=
  Prod.mk.inj (Option.some.inj (h.symm.trans h'))

/-- A round of a source: the event popped, the clock reading that its next event is counted from, and
the delay drawn for that. A payment is dispatched at this reading. -/
structure SourceRound where
  event : PaymentEvent
  base : SystemTime
  delay : Duration

/-- The next event is counted from the time that this one was due at. -/
def SourceRound.OnTime (r : SourceRound) : Prop := r.base = r.event.executionTime

def roundsOf (source : PublicKey) (rounds : List SourceRound) : List SourceRound :=
  rounds.filter (·.event.source = source)

/-- A round of the loop with the event that it popped; none for a source that has met its count. -/
inductive SourceTurn (clock : Clock) (nodes : Table PublicKey NodeInfo) (s : LoopState γ) :
    List SourceRound → LoopState γ → Prop where
  | stopped {now : SystemTime} {source : PublicKey} {p : Producer γ}
      (hnow : clock.idle s.now now)
      (hpop : s.producer.popEvent nodes now = .stopped source p) :
      SourceTurn clock nodes s [] ⟨p, now⟩
  | skipped {now : SystemTime} {event : PaymentEvent} {rest : EventHeap} {delay : Duration}
      {p : Producer γ} (hnow : clock.idle s.now now)
      (hheap : s.producer.heap.pop = some (event, rest)) (hzero : event.amount = 0)
      (hpop : s.producer.popEvent nodes now = .skipped event.source delay p) :
      SourceTurn clock nodes s [⟨event, now, delay⟩] ⟨p, now⟩
  | paid {now woken time : SystemTime} {event : PaymentEvent} {rest : EventHeap}
      {wait delay : Duration} {p p' : Producer γ} (hnow : clock.idle s.now now)
      (hheap : s.producer.heap.pop = some (event, rest)) (hamount : event.amount ≠ 0)
      (hpop : s.producer.popEvent nodes now = .sleeping event wait p)
      (hwoken : clock.sleep now wait woken)
      (hgenerate : p.generatePayment event.source woken = .ok (delay, p'))
      (htime : clock.idle woken time) :
      SourceTurn clock nodes s [⟨event, woken, delay⟩] ⟨p', time⟩

variable {s s' s₀ : LoopState γ} {rounds : List SourceRound} {source : PublicKey}

/-- The turns are the rounds of the loop. -/
theorem exists_sourceTurn_iff :
    (∃ rounds, SourceTurn clock nodes s rounds s') ↔ ∃ events, ClockedRound clock nodes s events s' := by
  constructor
  · rintro ⟨rounds, h⟩
    cases h with
    | stopped hnow hpop => exact ⟨_, .stopped hnow hpop⟩
    | skipped hnow _ _ hpop => exact ⟨_, .skipped hnow hpop⟩
    | paid hnow _ _ hpop hwoken hgenerate htime =>
      exact ⟨_, .dispatched hnow hpop hwoken hgenerate htime⟩
  · rintro ⟨events, h⟩
    cases h with
    | stopped hnow hpop => exact ⟨_, .stopped hnow hpop⟩
    | skipped hnow hpop =>
      obtain ⟨event, rest, hheap, hzero, rfl, -⟩ := Producer.popEvent_skipped hpop
      exact ⟨_, .skipped hnow hheap hzero hpop⟩
    | dispatched hnow hpop hwoken hgenerate htime =>
      obtain ⟨rest, tracker, hheap, hamount, -⟩ := Producer.popEvent_sleeping hpop
      exact ⟨_, .paid hnow hheap hamount hpop hwoken hgenerate htime⟩

/-- What a turn does to the queue: it drops the first event, or replaces it by the next event of its
source. -/
theorem SourceTurn.queue (h : SourceTurn clock nodes s rounds s') :
    (rounds = [] ∧ ∃ event, s.producer.heap.toList = event :: s'.producer.heap.toList) ∨
    (∃ r rest next, rounds = [r] ∧ s.producer.heap.toList = r.event :: rest ∧
      next.source = r.event.source ∧ next.executionTime = r.base + r.delay ∧
      s'.producer.heap.toList.Perm (next :: rest)) := by
  cases h with
  | @stopped now source p hnow hpop =>
    have hpops := s.producer.pops_popEvent nodes now
    rw [hpop] at hpops
    cases hpops with
    | stopped hheap _ _ => exact .inl ⟨rfl, _, MinHeap.toList_of_pop hheap⟩
  | skipped hnow hheap hzero hpop =>
    obtain ⟨event', rest', hheap', -, -, hgenerate⟩ := Producer.popEvent_skipped hpop
    obtain ⟨rfl, rfl⟩ := popped_unique hheap hheap'
    obtain ⟨-, next, hsource, htime, hperm⟩ := Producer.generatePayment_next hgenerate
    exact .inr ⟨_, _, next, rfl, MinHeap.toList_of_pop hheap, hsource, htime, hperm⟩
  | paid hnow hheap hamount hpop hwoken hgenerate htime =>
    obtain ⟨rest', tracker, hheap', -, -, -, rfl⟩ := Producer.popEvent_sleeping hpop
    obtain ⟨-, rfl⟩ := popped_unique hheap hheap'
    obtain ⟨-, next, hsource, hnext, hperm⟩ := Producer.generatePayment_next hgenerate
    exact .inr ⟨_, _, next, rfl, MinHeap.toList_of_pop hheap, hsource, hnext, hperm⟩

/-- Turns leave one event a source. -/
theorem SourceTurn.single (h : SourceTurn clock nodes s rounds s') (hsingle : s.producer.Single) :
    s'.producer.Single := by
  obtain ⟨events, hround⟩ := exists_sourceTurn_iff.mp ⟨rounds, h⟩
  exact hround.untimed.single hsingle

/-! ## Runs -/

theorem roundsOf_append (source : PublicKey) (rounds rounds' : List SourceRound) :
    roundsOf source (rounds ++ rounds') = roundsOf source rounds ++ roundsOf source rounds' :=
  List.filter_append ..

theorem ownSchedule_zero_cons (first : SystemTime) (delays : List Duration) :
    ownSchedule first (0 :: delays) = first :: ownSchedule first delays := by
  rw [ownSchedule_cons]
  simp

/-- The rounds so far of the source of `first` and the event that it has queued, if any, are on one
time line. -/
structure OnTimeline (first : PaymentEvent) (rounds : List SourceRound) (s : LoopState γ) :
    Prop where
  single : s.producer.Single
  position : ∃ pending, first.executionTime ::
      ownSchedule first.executionTime ((roundsOf first.source rounds).map (·.delay))
      = (roundsOf first.source rounds).map (·.event.executionTime) ++ [pending] ∧
    ∀ e ∈ s.producer.heap.toList, e.source = first.source → e.executionTime = pending

/-- At first a source has its first event queued. -/
theorem OnTimeline.start {first : PaymentEvent} (hsingle : s.producer.Single)
    (hfirst : first ∈ s.producer.heap.toList) : OnTimeline first [] s := by
  refine ⟨hsingle, first.executionTime, rfl, fun e he hsource => ?_⟩
  rw [List.inj_on_of_nodup_map hsingle he hfirst hsource]

/-- A turn in which every round is on time keeps all time lines. The event popped was the one pending,
if it is the source's. -/
theorem OnTimeline.turn {first : PaymentEvent} {before : List SourceRound}
    (h : OnTimeline first before s) (hturn : SourceTurn clock nodes s rounds s')
    (hontime : ∀ r ∈ rounds, r.OnTime) : OnTimeline first (before ++ rounds) s' := by
  obtain ⟨pending, hposition, hpending⟩ := h.position
  refine ⟨hturn.single h.single, ?_⟩
  rcases hturn.queue with ⟨rfl, event, hheap⟩ | ⟨r, rest, next, rfl, hheap, hsource, htime, hperm⟩
  · refine ⟨pending, by simpa using hposition, fun e he => hpending e ?_⟩
    rw [hheap]
    exact List.mem_cons_of_mem _ he
  have hbase : r.base = r.event.executionTime := hontime r (by simp)
  have hnodup := h.single
  unfold Producer.Single at hnodup
  rw [hheap, List.map_cons, List.nodup_cons] at hnodup
  have hothers : ∀ e ∈ rest, e.source ≠ r.event.source := fun e he heq =>
    hnodup.1 (heq ▸ List.mem_map_of_mem he)
  rw [roundsOf_append]
  by_cases hown : r.event.source = first.source
  -- a round of the source itself: the pending time is followed by the next one
  · have hdue : r.event.executionTime = pending := hpending r.event (by simp [hheap]) hown
    have hround : roundsOf first.source [r] = [r] := by simp [roundsOf, hown]
    refine ⟨pending + r.delay, ?_, fun e he hes => ?_⟩
    · rw [hround, List.map_append, List.map_append, List.map_singleton, List.map_singleton, hdue]
      rw [← ownSchedule_zero_cons, ← List.cons_append]
      apply ownSchedule_snoc
      rw [ownSchedule_zero_cons]
      exact hposition
    · rcases List.mem_cons.mp (hperm.mem_iff.mp he) with rfl | he
      · rw [htime, hbase, hdue]
      · exact absurd (hes.trans hown.symm) (hothers e he)
  -- a round of another source leaves the pending event
  · have hround : roundsOf first.source [r] = [] := by simp [roundsOf, hown]
    rw [hround, List.append_nil]
    refine ⟨pending, hposition, fun e he hes => ?_⟩
    rcases List.mem_cons.mp (hperm.mem_iff.mp he) with rfl | he
    · exact absurd (hsource.symm.trans hes) hown
    · exact hpending e (by simp [hheap, he]) hes

/-- Every event is due a number of whole seconds from now that `f64` represents, and the delays of
every executor are whole seconds too. -/
structure WholeSecondsAhead (s : LoopState γ) : Prop where
  queued : ∀ e ∈ s.producer.heap.toList, ∃ secs ≤ 2 ^ 53,
    e.executionTime = s.now + Duration.fromSecs secs
  executors : ∀ source tracker, s.producer.paymentsTracker.lookup source = some tracker →
    tracker.executor.WholeSeconds

/-- The event that is pushed is due a delay of its executor from now. -/
theorem WholeSecondsAhead.generate {p p' : Producer γ} {pubkey : PublicKey} {base : SystemTime}
    {delay : Duration} (h : WholeSecondsAhead ⟨p, base⟩)
    (hgenerate : p.generatePayment pubkey base = .ok (delay, p')) : WholeSecondsAhead ⟨p', base⟩ := by
  obtain ⟨tracker, destination, amount, g, htracker, hdelays, -⟩ :=
    Producer.generatePayment_ok hgenerate
  obtain ⟨htrackers, next, -, htime, hperm⟩ := Producer.generatePayment_next hgenerate
  refine ⟨fun e he => ?_, fun source tracker hl => ?_⟩
  · rcases List.mem_cons.mp (hperm.mem_iff.mp he) with rfl | he
    · obtain ⟨secs, hsecs, hdelay⟩ := h.executors pubkey tracker htracker _ _ hdelays
      exact ⟨secs, hsecs, by rw [htime, hdelay]⟩
    · exact h.queued e he
  · rw [htrackers] at hl
    exact h.executors source tracker hl

/-- The events that are left are as many whole seconds ahead. -/
theorem WholeSecondsAhead.pop {event : PaymentEvent} {rest : EventHeap} (h : WholeSecondsAhead s)
    (hpop : s.producer.heap.pop = some (event, rest)) :
    WholeSecondsAhead ⟨s.producer.withHeap rest, s.now⟩ := by
  refine ⟨fun e he => h.queued e ?_, h.executors⟩
  rw [MinHeap.toList_of_pop hpop]
  exact List.mem_cons_of_mem _ he

/-- An event that is not due before another one is whole seconds after it. -/
theorem wholeSeconds_after {now t t' : SystemTime} (hle : t ≤ t')
    (h : ∃ secs ≤ 2 ^ 53, t = now + Duration.fromSecs secs)
    (h' : ∃ secs ≤ 2 ^ 53, t' = now + Duration.fromSecs secs) :
    ∃ secs ≤ 2 ^ 53, t' = t + Duration.fromSecs secs := by
  obtain ⟨k, -, rfl⟩ := h
  obtain ⟨k', hk', rfl⟩ := h'
  have hkk' : k ≤ k' := by
    have hns : Duration.fromSecs k ≤ Duration.fromSecs k' := by
      have hcast := (add_le_add_iff_left now).mp hle
      exact_mod_cast hcast
    exact Nat.le_of_mul_le_mul_right hns (by decide)
  refine ⟨k' - k, by omega, ?_⟩
  have hsum : Duration.fromSecs k + Duration.fromSecs (k' - k) = Duration.fromSecs k' := by
    unfold Duration.fromSecs
    rw [← Nat.add_mul, Nat.add_sub_cancel' hkk']
  rw [← hsum, add_assoc]
  push_cast
  rfl

/-- On the exact clock a sleep ends when the payment is due. Only a skipped round can be off its
time. -/
theorem WholeSecondsAhead.turn (h : WholeSecondsAhead s)
    (hturn : SourceTurn .exact nodes s rounds s')
    (hzero : ∀ r ∈ rounds, r.event.amount = 0 → r.OnTime) :
    WholeSecondsAhead s' ∧ ∀ r ∈ rounds, r.OnTime := by
  cases hturn with
  | @stopped now source p hnow hpop =>
    cases hnow
    have hpops := s.producer.pops_popEvent nodes s.now
    rw [hpop] at hpops
    cases hpops with
    | stopped hheap htracker _ => exact ⟨h.pop hheap, by simp⟩
  | @skipped now event rest delay p hnow hheap hamount hpop =>
    cases hnow
    obtain ⟨event', rest', hheap', -, -, hgenerate⟩ := Producer.popEvent_skipped hpop
    obtain ⟨rfl, rfl⟩ := popped_unique hheap hheap'
    refine ⟨(h.pop hheap).generate hgenerate, fun r hr => ?_⟩
    obtain rfl := List.mem_singleton.mp hr
    exact hzero _ (by simp) hamount
  | @paid now woken time event rest wait delay p p' hnow hheap hamount hpop hwoken hgenerate htime =>
    cases hnow
    cases hwoken
    cases htime
    obtain ⟨rest', tracker, hheap', -, htracker, hwait, rfl⟩ := Producer.popEvent_sleeping hpop
    obtain ⟨-, rfl⟩ := popped_unique hheap hheap'
    have hdue := h.queued event (by simp [MinHeap.toList_of_pop hheap])
    -- the sleep is exact
    have hwoken : s.now + wait = event.executionTime := by
      obtain ⟨secs, hsecs, hexec⟩ := hdue
      rw [hwait, hexec, waitTime_wholeSeconds hsecs]
    have hcomplete :
        WholeSecondsAhead ⟨(s.producer.withHeap rest).complete event.source tracker, s.now + wait⟩ := by
      refine ⟨fun e he => ?_, fun source tracker' hl => ?_⟩
      · have hfirst := PaymentEvent.time_le_of_key_le (MinHeap.le_of_pop hheap he)
        show ∃ secs ≤ 2 ^ 53, e.executionTime = s.now + wait + Duration.fromSecs secs
        rw [hwoken]
        exact wholeSeconds_after hfirst hdue ((h.pop hheap).queued e he)
      · rcases Table.lookup_insert_cases hl with ⟨-, rfl⟩ | ⟨-, hl⟩
        · exact h.executors event.source tracker htracker
        · exact h.executors source tracker' hl
    refine ⟨hcomplete.generate hgenerate, fun r hr => ?_⟩
    obtain rfl := List.mem_singleton.mp hr
    exact hwoken

/-- Random numbers that are the highest possible and the lowest possible in turns. -/
def alternatingRng : ThreadRng Bool where
  genRangeU16 lo hi g := (if g then hi - 1 else lo, !g)
  genRangeU64 lo hi g := (if g then hi - 1 else lo, !g)
  genRangeU16_mem {lo hi} g h := by
    have hlt := UInt16.lt_iff_toNat_lt.mp h
    have hsub : (hi - 1).toNat = hi.toNat - 1 := UInt16.toNat_sub_of_le _ _ (by
      rw [UInt16.le_iff_toNat_le, UInt16.toNat_one]
      omega)
    cases g
    · exact ⟨UInt16.le_refl _, h⟩
    · simp only [if_true, UInt16.le_iff_toNat_le, UInt16.lt_iff_toNat_lt, hsub]
      omega
  genRangeU64_mem {lo hi} g h := by
    have hlt := UInt64.lt_iff_toNat_lt.mp h
    have hsub : (hi - 1).toNat = hi.toNat - 1 := UInt64.toNat_sub_of_le _ _ (by
      rw [UInt64.le_iff_toNat_le, UInt64.toNat_one]
      omega)
    cases g
    · exact ⟨UInt64.le_refl _, h⟩
    · simp only [if_true, UInt64.le_iff_toNat_le, UInt64.lt_iff_toNat_lt, hsub]
      omega

/-- Node 1 pays 1000 msat every five seconds, and node 2 less than 2000 msat. -/
def accompaniedActivity : List ActivityDefinition :=
  [sampleActivity 1 2 3 5, { sampleActivity 2 1 3 5 with amountMsat := .range 0 2000 }]

def accompaniedEvent (source secs : Nat) (amount : UInt64) : PaymentEvent :=
  ⟨⟨source⟩, Duration.fromSecs secs, sampleNode (3 - source), amount⟩

/-- The producer of `accompaniedActivity` with these events queued, after the payments of node 1 that
`completed` counts, with the next random number high or low. -/
def accompaniedProducer (queued : List PaymentEvent) (completed : List Nat) (high : Bool) :
    Producer Bool where
  heap := queued.foldl MinHeap.push .empty
  paymentsTracker := completed.foldl
    (fun trackers n => trackers.insert ⟨1⟩ ⟨(sampleActivity 1 2 3 5).executor alternatingRng, n⟩)
    ((AList.insert ⟨1⟩ ⟨(sampleActivity 1 2 3 5).executor alternatingRng, 0⟩ ∅).insert ⟨2⟩
      ⟨ActivityDefinition.executor alternatingRng
        { sampleActivity 2 1 3 5 with amountMsat := .range 0 2000 }, 0⟩)
  generators := high

def accompaniedStart : Producer Bool :=
  accompaniedProducer [accompaniedEvent 1 5 1000, accompaniedEvent 2 5 0] [] true

/-- Both first events are due after five seconds, and that of node 2 has amount zero. -/
theorem accompaniedActivity_setup :
    validateActivity alternatingRng sampleNodes accompaniedActivity true = .ok false ∧
    setupPaymentEvents (activityExecutors alternatingRng accompaniedActivity) 0 false
      = .ok ([.scheduled ⟨1⟩ (.fromSecs 5), .scheduled ⟨2⟩ (.fromSecs 5)], accompaniedStart) :=
  ⟨rfl, rfl⟩

/-- Payments of less than 2000 msat, one every five seconds. -/
def rangeActivity : ActivityDefinition :=
  { sampleActivity 1 2 3 5 with amountMsat := .range 0 2000 }

end SimLn
