import SimLn.Scheduler.Lateness

/-!
# SimLn — late sleeps that keep the order

The lateness of a sleep stays in the times that events are ordered by, but only until it is noticed:
waits are whole seconds and are rounded to whole seconds, so that what is left to an event is rounded
up to what it would be on time, as long as less than half a second has been lost since the event was
queued. Then only events that are due in one second can change places. `LittleLate` asks of one run,
before each round, that no more is lost and that the event which comes first in its second is the one
with the smallest key, as it is on time.

* `DueAhead`: by how many seconds each event is ahead of the clock, were no sleep late.
* `DueAhead.round`: a round moves this schedule on as if it were on time.
* `InStep`: two runs that have drawn the same and are on one schedule. Both pop the event that is first
  on it (`InStep.sameFirst`), and so go on in step (`InStep.round`).
-/

namespace SimLn

open Lib

variable {γ : Type} {nodes : Table PublicKey NodeInfo}

/-! ## Runs with their lateness -/

/-- The loop, with the time by which sleeps have ended late since the event of a source was queued. -/
structure LateState (γ : Type) where
  loop : LoopState γ
  late : PublicKey → Duration

/-- The event that a round schedules has not waited yet; all others have waited for its sleep. -/
def lateAfter (late : Duration) (lates : PublicKey → Duration) : List Activity → PublicKey → Duration
  | [.scheduled source _] => Function.update lates source 0
  | .scheduled source _ :: _ => Function.update (fun other => lates other + late) source 0
  | _ => lates

/-- A round whose sleep ends late by less than half a second. -/
def LateRound (nodes : Table PublicKey NodeInfo) (s : LateState γ) (events : List Activity)
    (t : LateState γ) : Prop :=
  ∃ late < halfSecond, ClockedRound (.lateBy late) nodes s.loop events t.loop ∧
    t.late = lateAfter late s.late events

/-- Every run on a clock whose sleeps end late has its lateness. -/
theorem exists_lateRun {start s : LoopState γ} {log : List Activity}
    (h : ClockedRun (.late halfSecond) nodes start log s) (lates : PublicKey → Duration) :
    ∃ rounds late, Steps (LateRound nodes) ⟨start, lates⟩ rounds ⟨s, late⟩ ∧ log = rounds.flatten := by
  obtain ⟨rounds, hrun, rfl⟩ := h
  suffices hlate : ∃ late, Steps (LateRound nodes) ⟨start, lates⟩ rounds ⟨s, late⟩ by
    obtain ⟨late, hlate⟩ := hlate
    exact ⟨rounds, late, hlate, rfl⟩
  refine hrun.invariant (I := fun rounds s => ∃ late,
    Steps (LateRound nodes) ⟨start, lates⟩ rounds ⟨s, late⟩) ⟨lates, .refl⟩ ?_
  rintro rounds s events t ⟨late, hrun⟩ hround
  obtain ⟨bound, hbound, hround⟩ := hround.exists_lateBy (by decide)
  exact ⟨lateAfter bound late events, hrun.tail ⟨bound, hbound, hround, rfl⟩⟩

/-- The lateness so far does not change the order of what is queued. While an event is queued, sleeps
end late by less than half a second in all. Of the events that are due within half a second of the
first one, the first one has the smallest key. No event is farther ahead than `2 ^ 52` seconds. -/
structure LittleLate (s : LateState γ) : Prop where
  late : ∀ e ∈ s.loop.producer.heap.toList, s.late e.source < halfSecond
  apart : ∀ e ∈ s.loop.producer.heap.toList,
    (∀ other ∈ s.loop.producer.heap.toList, e.key ≤ other.key) →
    ∀ other ∈ s.loop.producer.heap.toList, other.executionTime < e.executionTime + halfSecond →
      e.source ≤ other.source
  near : ∀ e ∈ s.loop.producer.heap.toList,
    e.executionTime ≤ s.loop.now + Duration.fromSecs (2 ^ 52)

/-- A round before which the lateness does not change the order. -/
def OrderlyRound (nodes : Table PublicKey NodeInfo) (s : LateState γ) (events : List Activity)
    (t : LateState γ) : Prop :=
  LittleLate s ∧ LateRound nodes s events t

/-! ## Whole seconds -/

/-- The executor waits for whole seconds. -/
def ExecutorKit.WaitsSeconds (ex : ExecutorKit γ) : Prop :=
  ∀ completed delay, ex.Delays completed delay → nanosPerSec ∣ delay

/-- All executors that are tracked wait for whole seconds. -/
def Producer.WaitsSeconds (p : Producer γ) : Prop :=
  ∀ source tracker, p.paymentsTracker.lookup source = some tracker → tracker.executor.WaitsSeconds

namespace Producer.WaitsSeconds

variable {p q : Producer γ} {pubkey : PublicKey} {base : SystemTime} {delay : Duration}

theorem generatePayment (h : p.WaitsSeconds)
    (hgenerate : p.generatePayment pubkey base = .ok (delay, q)) :
    nanosPerSec ∣ delay ∧ q.WaitsSeconds := by
  obtain ⟨tracker, destination, amount, g, htracker, hdelays, -, -, rfl⟩ :=
    generatePayment_ok hgenerate
  exact ⟨h _ _ htracker _ _ hdelays, h⟩

theorem complete {tracker : ExecutorPaymentTracker γ} (h : p.WaitsSeconds)
    (htracker : p.paymentsTracker.lookup pubkey = some tracker) :
    (p.complete pubkey tracker).WaitsSeconds := by
  intro source tracker' hlookup
  rcases Table.lookup_insert_cases hlookup with ⟨rfl, rfl⟩ | ⟨-, hlookup⟩
  · exact h _ tracker htracker
  · exact h source tracker' hlookup

theorem round {events : List Activity} (h : p.WaitsSeconds) (hround : UntimedRound p events q) :
    q.WaitsSeconds := by
  cases hround with
  | stopped hpop => exact h
  | @skipped event rest tracker base delay q hpop _ _ _ hgenerate =>
    have hrest : (p.withHeap rest).WaitsSeconds := h
    exact (hrest.generatePayment hgenerate).2
  | @dispatched event rest tracker base time delay q hpop htracker _ _ hgenerate =>
    have hrest : (p.withHeap rest).WaitsSeconds := h
    exact ((hrest.complete htracker).generatePayment hgenerate).2

end Producer.WaitsSeconds

/-! ## The schedule -/

/-- The event of a source is due `ahead` seconds from now, but for the time that has been lost since it
was queued. -/
def DueAhead (ahead : PublicKey → ℤ) (s : LateState γ) : Prop :=
  ∀ e ∈ s.loop.producer.heap.toList,
    e.executionTime = s.loop.now + ahead e.source * nanosPerSec - s.late e.source

/-- The schedule after a round: it has slept for the seconds to the event that it dispatches. -/
def aheadAfter (ahead : PublicKey → ℤ) : List Activity → PublicKey → ℤ
  | [.scheduled source delay] => Function.update ahead source (delay / nanosPerSec : ℕ)
  | .scheduled source delay :: _ =>
    Function.update (fun other => ahead other - (ahead source).toNat) source (delay / nanosPerSec : ℕ)
  | _ => ahead

/-- The schedule does not depend on when a payment is dispatched. -/
theorem aheadAfter_untimed (ahead : PublicKey → ℤ) (events : List Activity) :
    aheadAfter ahead (events.map Activity.untimed) = aheadAfter ahead events := by
  rcases events with _ | ⟨activity, _ | ⟨other, rest⟩⟩
  · rfl
  · cases activity <;> rfl
  · cases activity <;> rfl

namespace DueAhead

variable {ahead : PublicKey → ℤ} {p q : Producer γ} {now : SystemTime} {lates : PublicKey → Duration}
  {s t : LateState γ} {pubkey : PublicKey} {delay : Duration} {events : List Activity}

/-- A new event is on the schedule when it is pushed. -/
theorem generatePayment (h : DueAhead ahead ⟨⟨p, now⟩, lates⟩) (hwhole : p.WaitsSeconds)
    (hfresh : ∀ e ∈ p.heap.toList, e.source ≠ pubkey)
    (hgenerate : p.generatePayment pubkey now = .ok (delay, q)) :
    DueAhead (Function.update ahead pubkey (delay / nanosPerSec : ℕ))
      ⟨⟨q, now⟩, Function.update lates pubkey 0⟩ := by
  obtain ⟨hdvd, -⟩ := hwhole.generatePayment hgenerate
  obtain ⟨tracker, destination, amount, g, -, -, -, -, rfl⟩ := Producer.generatePayment_ok hgenerate
  intro e he
  rcases MinHeap.mem_push.mp he with rfl | he
  · have hdelay : ((delay / nanosPerSec : ℕ) : ℤ) * nanosPerSec = delay := by
      exact_mod_cast Nat.div_mul_cancel hdvd
    simp only [Function.update_self, hdelay]
    simp
  · simp only [Function.update_of_ne (hfresh e he)]
    exact h e he

/-- What is due first is first on the schedule, by its second and then by its key, exactly if it has the
smallest key of what is due within half a second of it. -/
theorem first_iff (h : DueAhead ahead s)
    (hlate : ∀ e ∈ s.loop.producer.heap.toList, s.late e.source < halfSecond) {e : PaymentEvent}
    (he : e ∈ s.loop.producer.heap.toList)
    (hfirst : ∀ other ∈ s.loop.producer.heap.toList, e.key ≤ other.key) {other : PaymentEvent}
    (hother : other ∈ s.loop.producer.heap.toList) :
    (other.executionTime < e.executionTime + halfSecond → e.source ≤ other.source) ↔
      toLex (ahead e.source, e.source) ≤ toLex (ahead other.source, other.source) := by
  have hle : e.executionTime ≤ other.executionTime := Prod.Lex.monotone_fst _ _ (hfirst other hother)
  have hdue := h e he
  have hdue' := h other hother
  have hlost : (s.late e.source : ℤ) < halfSecond := by exact_mod_cast hlate e he
  have hlost' : (s.late other.source : ℤ) < halfSecond := by exact_mod_cast hlate other hother
  have hpos : (0 : ℤ) ≤ s.late e.source := Int.natCast_nonneg _
  have hpos' : (0 : ℤ) ≤ s.late other.source := Int.natCast_nonneg _
  have hhalf : (2 * halfSecond : ℤ) = nanosPerSec := rfl
  rw [Prod.Lex.toLex_le_toLex]
  rcases lt_trichotomy (ahead e.source) (ahead other.source) with hlt | heq | hgt
  -- in a later second, `other` is at least half a second behind
  · refine iff_of_true (fun hnear => absurd hnear (not_lt.mpr ?_)) (.inl hlt)
    have hsecond : ahead e.source * (nanosPerSec : ℤ) + nanosPerSec
        ≤ ahead other.source * nanosPerSec := by
      nlinarith [Int.add_one_le_iff.mpr hlt, Int.natCast_nonneg nanosPerSec]
    linarith
  -- in one second the key decides
  · have hnear : other.executionTime < e.executionTime + halfSecond := by
      rw [hdue, hdue', heq]
      linarith
    constructor
    · exact fun hkey => .inr ⟨heq, hkey hnear⟩
    · rintro (hlt | ⟨-, hkey⟩) -
      · exact absurd heq hlt.ne
      · exact hkey
  -- the time that has been lost is less than a second
  · exfalso
    have hsecond : ahead other.source * (nanosPerSec : ℤ) + nanosPerSec
        ≤ ahead e.source * nanosPerSec := by
      nlinarith [Int.add_one_le_iff.mpr hgt, Int.natCast_nonneg nanosPerSec]
    linarith

theorem first (h : DueAhead ahead s) (hlittle : LittleLate s) {e : PaymentEvent}
    {rest : EventHeap} (hpop : s.loop.producer.heap.pop = some (e, rest)) {other : PaymentEvent}
    (hother : other ∈ s.loop.producer.heap.toList) :
    toLex (ahead e.source, e.source) ≤ toLex (ahead other.source, other.source) := by
  have hlist := MinHeap.toList_of_pop hpop
  have hmem : e ∈ s.loop.producer.heap.toList := by simp [hlist]
  have hfirst : ∀ other ∈ s.loop.producer.heap.toList, e.key ≤ other.key := by
    rw [hlist, List.forall_mem_cons]
    exact ⟨le_rfl, fun other hother => MinHeap.le_of_pop hpop hother⟩
  exact (h.first_iff hlittle.late hmem hfirst hother).mp (hlittle.apart e hmem hfirst other hother)

/-- The producer waits as long as it would on time. -/
theorem waitTime (h : DueAhead ahead s) (hlittle : LittleLate s) {e : PaymentEvent}
    (he : e ∈ s.loop.producer.heap.toList) :
    SimLn.waitTime e.executionTime s.loop.now = Duration.fromSecs (ahead e.source).toNat := by
  have hlate : 2 * s.late e.source ≤ nanosPerSec :=
    Nat.mul_le_mul_left 2 (hlittle.late e he).le
  have hnear := hlittle.near e he
  rw [h e he] at hnear ⊢
  refine waitTime_of_late ?_ hlate
  by_contra hfar
  have hfar' : (2 ^ 52 + 1 : ℤ) * nanosPerSec ≤ ahead e.source * nanosPerSec :=
    mul_le_mul_of_nonneg_right (by omega) (Int.natCast_nonneg _)
  have hsecs : ((Duration.fromSecs (2 ^ 52) : ℕ) : ℤ) = 2 ^ 52 * nanosPerSec := rfl
  have : (2 * s.late e.source : ℤ) ≤ nanosPerSec := by exact_mod_cast hlate
  have : (0 : ℤ) < nanosPerSec := by decide
  linarith

/-- The sleep before a payment moves the clock on, and all that is queued waits for it. -/
theorem slept (h : DueAhead ahead ⟨⟨p, now⟩, lates⟩) (secs : ℕ) (late : Duration) :
    DueAhead (fun other => ahead other - secs)
      ⟨⟨p, now + Duration.fromSecs secs + late⟩, fun other => lates other + late⟩ := by
  intro e he
  have hdue := h e he
  have hsecs : ((Duration.fromSecs secs : ℕ) : ℤ) = secs * nanosPerSec := by
    simp [Duration.fromSecs]
  simp only at hdue ⊢
  rw [hdue, hsecs]
  push_cast
  ring

/-- **A round keeps to the schedule**, which moves on as if the round were on time. -/
theorem round (h : DueAhead ahead s) (hlittle : LittleLate s) (hsingle : s.loop.producer.Single)
    (hwhole : s.loop.producer.WaitsSeconds) (hround : LateRound nodes s events t) :
    DueAhead (aheadAfter ahead events) t := by
  obtain ⟨late, -, hround, hlates⟩ := hround
  obtain ⟨tloop, tlates⟩ := t
  obtain rfl : tlates = lateAfter late s.late events := hlates
  cases hround with
  | @stopped now source p hnow hpop =>
    obtain rfl : now = s.loop.now := hnow
    have hpops := s.loop.producer.pops_popEvent nodes s.loop.now
    rw [hpop] at hpops
    cases hpops with
    | stopped hheap =>
      have hlist := MinHeap.toList_of_pop hheap
      exact fun e he => h e (by rw [hlist]; exact List.mem_cons_of_mem _ he)
  | @skipped now source delay p hnow hpop =>
    obtain rfl : now = s.loop.now := hnow
    have hpops := s.loop.producer.pops_popEvent nodes s.loop.now
    rw [hpop] at hpops
    cases hpops with
    | @skipped event rest tracker _ _ hheap _ _ _ hgenerate =>
      have hlist := MinHeap.toList_of_pop hheap
      have hrest : DueAhead ahead ⟨⟨s.loop.producer.withHeap rest, s.loop.now⟩, s.late⟩ :=
        fun e he => h e (by rw [hlist]; exact List.mem_cons_of_mem _ he)
      exact hrest.generatePayment hwhole (hsingle.pop hheap).2 hgenerate
  | @dispatched now woken time event wait delay p q hnow hpop hwoken hgenerate htime =>
    obtain rfl : now = s.loop.now := hnow
    obtain rfl : woken = s.loop.now + wait + late := hwoken
    obtain rfl : time = s.loop.now + wait + late := htime
    have hpops := s.loop.producer.pops_popEvent nodes s.loop.now
    rw [hpop] at hpops
    cases hpops with
    | @sleeping _ rest tracker hheap htracker =>
      have hlist := MinHeap.toList_of_pop hheap
      have hrest : DueAhead ahead ⟨⟨(s.loop.producer.withHeap rest).complete event.source tracker,
          s.loop.now⟩, s.late⟩ :=
        fun e he => h e (by rw [hlist]; exact List.mem_cons_of_mem _ he)
      have hwhole' : (s.loop.producer.withHeap rest).WaitsSeconds := hwhole
      rw [h.waitTime hlittle (by simp [hlist])] at hgenerate ⊢
      exact (hrest.slept _ late).generatePayment (hwhole'.complete htracker)
        (hsingle.pop hheap).2 hgenerate

/-- Set-up puts the first event of each executor on the schedule. Induction on the executors that are
left: none of their sources has an event yet. -/
theorem setupExecutors {left : List (ExecutorKit γ)} {log : List Activity}
    (h : DueAhead ahead ⟨⟨p, now⟩, fun _ => 0⟩) (hwhole : p.WaitsSeconds)
    (hleft : ∀ ex ∈ left, ex.WaitsSeconds) (hdistinct : (left.map (·.source)).Nodup)
    (hfresh : ∀ ex ∈ left, ∀ e ∈ p.heap.toList, e.source ≠ ex.source)
    (hsetup : SimLn.setupExecutors now left p = .ok (log, q)) :
    q.WaitsSeconds ∧ ∃ ahead, DueAhead ahead ⟨⟨q, now⟩, fun _ => 0⟩ := by
  induction left generalizing p log ahead with
  | nil =>
    cases hsetup
    exact ⟨hwhole, ahead, h⟩
  | cons ex rest ih =>
    rw [List.map_cons, List.nodup_cons] at hdistinct
    rw [SimLn.setupExecutors] at hsetup
    split at hsetup
    · cases hsetup
    next delay p' hgenerate =>
      split at hsetup
      · cases hsetup
      next log' q' hrest =>
        cases hsetup
        have htracked : Producer.WaitsSeconds
            { p with paymentsTracker := p.paymentsTracker.insert ex.source ⟨ex, 0⟩ } := by
          intro source tracker hlookup
          rcases Table.lookup_insert_cases hlookup with ⟨rfl, rfl⟩ | ⟨-, hlookup⟩
          · exact hleft ex (by simp)
          · exact hwhole source tracker hlookup
        have hqueued : DueAhead ahead ⟨⟨{ p with
            paymentsTracker := p.paymentsTracker.insert ex.source ⟨ex, 0⟩ }, now⟩, fun _ => 0⟩ := h
        have hnext := hqueued.generatePayment htracked (hfresh ex (by simp)) hgenerate
        rw [Function.update_eq_self_iff.mpr rfl] at hnext
        refine ih hnext (htracked.generatePayment hgenerate).2
          (fun ex' hex' => hleft ex' (by simp [hex'])) hdistinct.2 ?_ hrest
        obtain ⟨tracker, destination, amount, g, -, -, -, -, rfl⟩ :=
          Producer.generatePayment_ok hgenerate
        intro ex' hex' e he
        rcases MinHeap.mem_push.mp he with rfl | he
        · exact fun heq => hdistinct.1 (List.mem_map.mpr ⟨ex', hex', heq.symm⟩)
        · exact hfresh ex' (by simp [hex']) e he

end DueAhead

/-! ## Two runs in step -/

/-- Two runs have drawn the same and are on one schedule. -/
structure InStep (s t : LateState γ) : Prop where
  alike : Alike s.loop.producer t.loop.producer
  single : s.loop.producer.Single ∧ t.loop.producer.Single
  whole : s.loop.producer.WaitsSeconds ∧ t.loop.producer.WaitsSeconds
  schedule : ∃ ahead, DueAhead ahead s ∧ DueAhead ahead t

namespace InStep

variable {s s' t t' : LateState γ} {events events' : List Activity}

/-- Both pop what is first on the schedule. -/
theorem sameFirst (h : InStep s t) (hs : LittleLate s) (ht : LittleLate t) :
    SameFirst s.loop.producer t.loop.producer := by
  obtain ⟨ahead, hahead, hahead'⟩ := h.schedule
  intro e rest e' rest' hpop hpop'
  have hmem : e ∈ s.loop.producer.heap.toList := by simp [MinHeap.toList_of_pop hpop]
  have hmem' : e' ∈ t.loop.producer.heap.toList := by simp [MinHeap.toList_of_pop hpop']
  -- each source is queued in the other run too
  obtain ⟨x, hx, hpayment⟩ := h.alike.exists_queued hmem'
  obtain ⟨x', hx', hpayment'⟩ := h.alike.symm.exists_queued hmem
  have hle := hahead.first hs hpop hx
  have hle' := hahead'.first ht hpop' hx'
  rw [PaymentEvent.source_eq hpayment] at hle
  rw [PaymentEvent.source_eq hpayment'] at hle'
  exact congrArg (fun key => (ofLex key).2) (le_antisymm hle hle')

/-- **Two runs that are in step do the same in a round** and stay in step. -/
theorem round (h : InStep s t) (hround : OrderlyRound nodes s events s')
    (hround' : OrderlyRound nodes t events' t') :
    events.map Activity.untimed = events'.map Activity.untimed ∧ InStep s' t' := by
  obtain ⟨hlittle, hround⟩ := hround
  obtain ⟨hlittle', hround'⟩ := hround'
  obtain ⟨ahead, hahead, hahead'⟩ := h.schedule
  have huntimed : UntimedRound s.loop.producer events s'.loop.producer := by
    obtain ⟨late, -, hclocked, -⟩ := hround
    exact hclocked.untimed
  have huntimed' : UntimedRound t.loop.producer events' t'.loop.producer := by
    obtain ⟨late, -, hclocked, -⟩ := hround'
    exact hclocked.untimed
  obtain ⟨hevents, halike⟩ :=
    h.alike.round h.single.2 (h.sameFirst hlittle hlittle') huntimed huntimed'
  refine ⟨hevents, halike, ⟨huntimed.single h.single.1, huntimed'.single h.single.2⟩,
    ⟨h.whole.1.round huntimed, h.whole.2.round huntimed'⟩, aheadAfter ahead events, ?_, ?_⟩
  · exact hahead.round hlittle h.single.1 h.whole.1 hround
  · rw [← aheadAfter_untimed, hevents, aheadAfter_untimed]
    exact hahead'.round hlittle' h.single.2 h.whole.2 hround'

end InStep

/-- Two runs of the producer that has been set up start in step. -/
theorem inStep_setupPaymentEvents {executors : List (ExecutorKit γ)} {now : SystemTime} {g : γ}
    {log : List Activity} {p : Producer γ} (hdistinct : (executors.map (·.source)).Nodup)
    (hwhole : ∀ ex ∈ executors, ex.WaitsSeconds)
    (hsetup : setupPaymentEvents executors now g = .ok (log, p)) :
    InStep ⟨⟨p, now⟩, fun _ => 0⟩ ⟨⟨p, now⟩, fun _ => 0⟩ := by
  have hsingle := single_setupPaymentEvents hdistinct hsetup
  have hperm := List.perm_insertionSort (fun ex1 ex2 : ExecutorKit γ => ex1.source ≤ ex2.source)
    executors
  -- nothing is queued before the set-up
  have hempty : DueAhead (fun _ => 0)
      (⟨⟨{ heap := .empty, paymentsTracker := ∅, generators := g }, now⟩, fun _ => 0⟩ : LateState γ) :=
    fun e he => absurd he (by simp)
  obtain ⟨hqwhole, ahead, hahead⟩ := hempty.setupExecutors (fun _ _ h => by cases h)
    (fun ex hex => hwhole ex (hperm.mem_iff.mp hex)) ((hperm.map _).nodup_iff.mpr hdistinct) (by simp)
    hsetup
  exact ⟨.refl p, ⟨hsingle, hsingle⟩, ⟨hqwhole, hqwhole⟩, ahead, hahead, hahead⟩

/-- Runs that start in step pay the same in the same order, as far as both go. -/
theorem paid_prefix_of_orderly {s₀ s t₀ t : LateState γ} {rounds rounds' : List (List Activity)}
    (h : InStep s₀ t₀) (hrun : Steps (OrderlyRound nodes) s₀ rounds s)
    (hrun' : Steps (OrderlyRound nodes) t₀ rounds' t) :
    paid rounds.flatten <+: paid rounds'.flatten ∨ paid rounds'.flatten <+: paid rounds.flatten := by
  have hpaid : ∀ rounds : List (List Activity),
      paid (rounds.map (List.map Activity.untimed)).flatten = paid rounds.flatten := fun rounds => by
    rw [← List.map_flatten, paid_untimed]
  have hstarts : ∀ xs ys : List (List Activity), xs <+: ys → paid xs.flatten <+: paid ys.flatten := by
    rintro xs _ ⟨more, rfl⟩
    rw [List.flatten_append, paid_append]
    exact List.prefix_append _ _
  rw [← hpaid rounds, ← hpaid rounds']
  have hlockstep := Steps.lockstep (List.map Activity.untimed) (List.map Activity.untimed)
    (fun _ _ _ _ _ _ hin hround hround' => InStep.round hin hround hround') hrun hrun' h
  exact hlockstep.imp (hstarts _ _) (hstarts _ _)

/-! ## Running with little lateness -/

instance (s : LateState γ) : Decidable (LittleLate s) :=
  decidable_of_iff
    ((∀ e ∈ s.loop.producer.heap.toList, s.late e.source < halfSecond) ∧
      (∀ e ∈ s.loop.producer.heap.toList, (∀ other ∈ s.loop.producer.heap.toList, e.key ≤ other.key) →
        ∀ other ∈ s.loop.producer.heap.toList, other.executionTime < e.executionTime + halfSecond →
          e.source ≤ other.source) ∧
      ∀ e ∈ s.loop.producer.heap.toList, e.executionTime ≤ s.loop.now + Duration.fromSecs (2 ^ 52))
    ⟨fun ⟨hlate, hapart, hnear⟩ => ⟨hlate, hapart, hnear⟩, fun h => ⟨h.late, h.apart, h.near⟩⟩

/-- As many rounds as sleeps are given, each ending as late as given, if the order is kept. -/
def LateState.run (nodes : Table PublicKey NodeInfo) :
    List Duration → LateState γ → Option (List (List Activity) × LateState γ)
  | [], s => some ([], s)
  | late :: lates, s =>
    if LittleLate s then
      match LoopState.lateIteration nodes late s.loop with
      | .returned _ => none
      | .next events loop =>
        (LateState.run nodes lates ⟨loop, lateAfter late s.late events⟩).map
          fun (rounds, t) => (events :: rounds, t)
    else none

theorem orderly_of_run {lates : List Duration} {s t : LateState γ} {rounds : List (List Activity)}
    (hlates : ∀ late ∈ lates, late < halfSecond) (h : LateState.run nodes lates s = some (rounds, t)) :
    Steps (OrderlyRound nodes) s rounds t := by
  induction lates generalizing s rounds with
  | nil =>
    cases h
    exact .refl
  | cons late lates ih =>
    unfold LateState.run at h
    split at h
    next hlittle =>
      split at h
      · cases h
      next events loop hround =>
        obtain ⟨⟨rest, t'⟩, hrest, heq⟩ := Option.map_eq_some_iff.mp h
        cases heq
        have hlate : late < halfSecond := hlates late (by simp)
        have htail := ih (fun late hlate => hlates late (by simp [hlate])) hrest
        exact htail.head ⟨hlittle, late, hlate, clockedRound_of_lateIteration hround, rfl⟩
    · cases h

end SimLn
