import SimLn.Scheduler.Schedules
import SimLn.Lib.Lists

/-!
# SimLn — the draws of a defined activity

What the executor of a defined activity can draw: its own start delay and intervals, its own
destination, its own amount, and never an error. The scheduler's results about executors apply to
defined activities through these facts.
-/

namespace SimLn

open Lib

variable {γ : Type}

/-- The values that a fixed value or a non-empty range stands for. -/
def ValueOrRange.Contains {α : Type} [LT α] [LE α] : ValueOrRange α → α → Prop
  | .fixed x, y => y = x
  | .range min max, y => min < max → min ≤ y ∧ y < max

/-- `delay` is what an activity waits before the payment that follows `completed` others: its start
delay, if it has one, before the first, else one of its intervals. -/
def ActivityDefinition.DelayAt (description : ActivityDefinition) (completed : Nat)
    (delay : Duration) : Prop :=
  if completed = 0 ∧ description.startSecs.isSome then
    description.startSecs.map (fun start => Duration.fromSecs start.toNat) = some delay
  else
    ∃ secs, description.intervalSecs.Contains secs ∧ delay = Duration.fromSecs secs.toNat

/-- The longest delay of a defined activity: start delays and intervals are `u16` seconds. -/
def maxDelay : Duration := Duration.fromSecs (2 ^ 16)

/-- Delays are whole seconds, fewer than `u16` has values. -/
theorem ActivityDefinition.DelayAt.wholeSeconds {description : ActivityDefinition}
    {completed : Nat} {delay : Duration} (h : description.DelayAt completed delay) :
    ∃ secs < 2 ^ 16, delay = Duration.fromSecs secs := by
  unfold ActivityDefinition.DelayAt at h
  split at h
  · obtain ⟨start, -, rfl⟩ := Option.map_eq_some_iff.mp h
    exact ⟨start.toNat, start.toNat_lt, rfl⟩
  · obtain ⟨secs, -, rfl⟩ := h
    exact ⟨secs.toNat, secs.toNat_lt, rfl⟩

/-- No delay is longer than the longest. -/
theorem ActivityDefinition.DelayAt.le_maxDelay {description : ActivityDefinition}
    {completed : Nat} {delay : Duration} (h : description.DelayAt completed delay) :
    delay ≤ maxDelay := by
  obtain ⟨secs, hsecs, rfl⟩ := h.wholeSeconds
  exact Nat.mul_le_mul_right _ (le_of_lt hsecs)

section Executor

variable (rng : ThreadRng γ) (description : ActivityDefinition)

@[simp] theorem executor_source : (description.executor rng).source = description.source.pubkey :=
  rfl

theorem executor_count :
    (description.executor rng).count = description.count.map UInt64.toNat := rfl

variable {rng description}

/-- A wait that the executor draws is one of the intervals described. -/
theorem interval_of_waits {delay : Duration} (h : (description.executor rng).Waits delay) :
    ∃ secs, description.intervalSecs.Contains secs ∧ delay = Duration.fromSecs secs.toNat := by
  obtain ⟨g, g', hwait⟩ := h
  obtain ⟨rfl, -⟩ := Prod.mk.inj (Except.ok.inj hwait)
  refine ⟨(description.intervalSecs.value rng.genRangeU16 g).1, ?_, rfl⟩
  cases description.intervalSecs with
  | fixed x => rfl
  | range min max => exact fun hrange => rng.genRangeU16_mem g hrange

/-- A delay that the executor draws is one that is described. -/
theorem delayAt_of_delays {completed : Nat} {delay : Duration}
    (h : (description.executor rng).Delays completed delay) :
    description.DelayAt completed delay := by
  have hstart : (description.executor rng).paymentGenerator.paymentStart
      = description.startSecs.map fun start => Duration.fromSecs start.toNat := rfl
  unfold ExecutorKit.Delays at h
  unfold ActivityDefinition.DelayAt
  rw [hstart, Option.isSome_map] at h
  split
  next hfirst =>
    rw [if_pos hfirst] at h
    exact h
  next hfirst =>
    rw [if_neg hfirst] at h
    exact interval_of_waits h

/-- A defined activity pays its own destination its own amount. -/
theorem own_of_pays {destination : NodeInfo} {amount : UInt64}
    (h : (description.executor rng).Pays destination amount) :
    destination = description.destination ∧
      ∃ g, amount = (description.amountMsat.value rng.genRangeU64 g).1 := by
  obtain ⟨g, g', g'', capacity, hdestination, hamount⟩ := h
  cases hdestination
  exact ⟨rfl, g, (congrArg Prod.fst (Except.ok.inj hamount)).symm⟩

/-- Defined activities wait for whole seconds. -/
theorem executor_wholeSeconds : (description.executor rng).WholeSeconds := by
  intro completed delay h
  obtain ⟨secs, hsecs, rfl⟩ := (delayAt_of_delays h).wholeSeconds
  exact ⟨secs, by omega, rfl⟩

theorem executor_neverFails : (description.executor rng).NeverFails where
  wait g e h := by cases h
  destination g e h := by cases h
  amount g g' destination capacity e hdestination h := by
    cases hdestination
    cases h

/-- With a fixed amount that is not zero no payment is for nothing. -/
theorem executor_nonZero {amount : UInt64} (hfixed : description.amountMsat = .fixed amount)
    (hamount : amount ≠ 0) : (description.executor rng).NonZero := by
  intro destination amount' h
  obtain ⟨-, g, rfl⟩ := own_of_pays h
  rw [hfixed]
  exact hamount

/-- A schedule with delays of at most `maxDelay` is over by the time that this would take. -/
theorem ownSchedule_le {start t : SystemTime} {delays : List Duration}
    (hdelays : ∀ d ∈ delays, d ≤ maxDelay) (ht : t ∈ ownSchedule start delays) :
    t ≤ start + delays.length * maxDelay := by
  induction delays generalizing start with
  | nil => simp at ht
  | cons delay delays ih =>
    have hdelay := hdelays delay (by simp)
    rw [ownSchedule_cons] at ht
    rw [List.length_cons]
    rcases List.mem_cons.mp ht with rfl | ht
    · simp only [SystemTime, Duration, maxDelay, Duration.fromSecs, nanosPerSec] at hdelay ⊢
      omega
    · have hrest := ih (fun d hd => hdelays d (by simp [hd])) ht
      simp only [SystemTime, Duration, maxDelay, Duration.fromSecs, nanosPerSec] at hdelay hrest ⊢
      push_cast
      omega

/-- A count that leaves room for the longest delays fits. -/
theorem executor_fits {start : SystemTime}
    (hroom : ∀ c, description.count = some c →
      start + (c.toNat + 1) * maxDelay < SystemTime.limit) :
    (description.executor rng).Fits start := by
  intro n delays hcount hdraws hlength t ht
  obtain ⟨c, hc, rfl⟩ := Option.map_eq_some_iff.mp hcount
  have hdelays : ∀ d ∈ delays, d ≤ maxDelay := by
    intro d hd
    obtain ⟨i, hi⟩ := List.mem_iff_getElem?.mp hd
    exact (delayAt_of_delays (hdraws i d hi)).le_maxDelay
  have hle := ownSchedule_le hdelays ht
  have hmul : (delays.length : Int) * maxDelay ≤ (c.toNat + 1) * maxDelay := by
    exact_mod_cast Nat.mul_le_mul_right maxDelay hlength
  have hlt := hroom c hc
  simp only [SystemTime] at hle hmul hlt ⊢
  omega

end Executor

/-! ## All activities of a simulation -/

section Activities

variable {rng : ThreadRng γ} {activity : List ActivityDefinition}

/-- The executors are those of the activities. -/
theorem mem_activityExecutors {ex : ExecutorKit γ} :
    ex ∈ activityExecutors rng activity ↔ ∃ flow ∈ activity, flow.executor rng = ex :=
  List.mem_map

/-- All executors of defined activities wait for whole seconds. -/
theorem activityExecutors_wholeSeconds :
    ∀ ex ∈ activityExecutors rng activity, ex.WholeSeconds := by
  intro ex hex
  obtain ⟨flow, -, rfl⟩ := mem_activityExecutors.mp hex
  exact executor_wholeSeconds

/-- Drawing from a defined activity never fails. -/
theorem activityExecutors_neverFails :
    ∀ ex ∈ activityExecutors rng activity, ex.NeverFails := by
  intro ex hex
  obtain ⟨flow, -, rfl⟩ := mem_activityExecutors.mp hex
  exact executor_neverFails

/-- With fixed amounts that are not zero no executor pays nothing. -/
theorem activityExecutors_nonZero
    (hamounts : ∀ flow ∈ activity, ∃ amount, flow.amountMsat = .fixed amount ∧ amount ≠ 0) :
    ∀ ex ∈ activityExecutors rng activity, ex.NonZero := by
  intro ex hex
  obtain ⟨flow, hflow, rfl⟩ := mem_activityExecutors.mp hex
  obtain ⟨amount, hfixed, hamount⟩ := hamounts flow hflow
  exact executor_nonZero hfixed hamount

/-- If there is room for the longest delays, there is room for those that are drawn. -/
theorem activityExecutors_fits {start : SystemTime}
    (hroom : ∀ flow ∈ activity, ∀ c, flow.count = some c →
      start + (c.toNat + 1) * maxDelay < SystemTime.limit) :
    ∀ ex ∈ activityExecutors rng activity, ex.Fits start := by
  intro ex hex
  obtain ⟨flow, hflow, rfl⟩ := mem_activityExecutors.mp hex
  exact executor_fits (hroom flow hflow)

end Activities

/-- Validation has accepted every flow of the list, in some state of the generators. -/
theorem validateActivity_ok {rng : ThreadRng γ} {nodes : Table PublicKey NodeInfo}
    {activity : List ActivityDefinition} {g g' : γ}
    (h : validateActivity rng nodes activity g = .ok g') :
    ∀ flow ∈ activity, ∃ g₁ g₂, validatePaymentFlow rng nodes g₁ flow = .ok g₂ := by
  have hfold : activity.foldlM (validatePaymentFlow rng nodes) g = .ok g' := by
    unfold validateActivity at h
    split at h
    · cases h
    · split at h
      · cases h
      · exact h
  intro flow hflow
  exact exists_ok_of_foldlM hfold hflow

/-! ## A small simulation -/

def sampleNode (key : Nat) : NodeInfo := nodeInfo ⟨key⟩ ""

def sampleNodes : Table PublicKey NodeInfo :=
  ((∅ : Table PublicKey NodeInfo).insert ⟨1⟩ (sampleNode 1)).insert ⟨2⟩ (sampleNode 2)

/-- Random numbers that are always the least possible. -/
def lowestRng : ThreadRng Unit where
  genRangeU16 lo _ g := (lo, g)
  genRangeU64 lo _ g := (lo, g)
  genRangeU16_mem _ h := ⟨UInt16.le_refl _, h⟩
  genRangeU64_mem _ h := ⟨UInt64.le_refl _, h⟩

/-- An activity of `count` payments of 1000 msat, one every `interval` seconds. -/
def sampleActivity (source destination : Nat) (count : UInt64) (interval : UInt16) :
    ActivityDefinition where
  source := sampleNode source
  destination := sampleNode destination
  startSecs := none
  count := some count
  intervalSecs := .fixed interval
  amountMsat := .fixed 1000

end SimLn
