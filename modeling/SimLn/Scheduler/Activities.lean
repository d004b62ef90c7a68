import SimLn.Scheduler.Refinement
import SimLn.Lib.Interleaving
import Mathlib.Data.List.FinRange

/-!
# SimLn — what becomes of the activities a user describes

An activity is executed as described when it has payments of its own: from its source to its
destination, with its amount, on a schedule of its start delay and its intervals, and as many as it
was given a count. The payments of a simulation have to divide up into these.

The producer keeps one tracker for each source. `executesAsDescribed_iff` shows that this serves
exactly the lists of activities no two of which share a source: with a shared source the tracker
set up last counts for all of them, and payments are missing in the end.
-/

namespace SimLn

open Lib

variable {γ : Type}

/-- `payments` are those of one activity by `now`: to its destination with its amount, at the times
of its own schedule up to a pending one that its count rules out or that is not yet past. -/
structure ActivityDefinition.Executed (description : ActivityDefinition)
    (start now : SystemTime) (payments : List Dispatch) : Prop where
  own : ∀ d ∈ payments, d.event.source = description.source.pubkey ∧
    d.event.destination = description.destination ∧
    description.amountMsat = .fixed d.event.amount
  schedule : ∃ delays pending,
    (∀ (i : Nat) (delay : Duration), delays[i]? = some delay → description.DelayAt i delay) ∧
    ownSchedule start delays = payments.map (·.time) ++ [pending] ∧
    (description.count.map UInt64.toNat = some payments.length ∨ now ≤ pending)
  capped : ∀ c, description.count = some c → payments.length ≤ c.toNat

/-- Every payment belongs to one activity, and what belongs to an activity is what it describes. -/
def ExecutedAsDescribed (activity : List ActivityDefinition) (start now : SystemTime)
    (owned : List (Fin activity.length × Dispatch)) : Prop :=
  ∀ i, (activity.get i).Executed start now (eventsOf i owned)

/-- Every activity with a count has made that many payments. -/
def CountsMet (activity : List ActivityDefinition)
    (owned : List (Fin activity.length × Dispatch)) : Prop :=
  ∀ i c, (activity.get i).count = some c → (eventsOf i owned).length = c.toNat

/-- What a user expects of a list of activities: at any time its payments divide up as described,
and in some state of the loop all counts have been met. -/
structure ExecutesAsDescribed (rng : ThreadRng γ) (nodes : Table PublicKey NodeInfo)
    (activity : List ActivityDefinition) (start : SystemTime) (g : γ) : Prop where
  throughout : ∀ log₀ p log s,
    setupPaymentEvents (activityExecutors rng activity) start g = .ok (log₀, p) →
    (LoopState.iteration nodes).Run ⟨p, start⟩ log s →
    ∃ owned, owned.map Prod.snd = dispatches log ∧ ExecutedAsDescribed activity start s.now owned
  completes : ∃ log₀ p log s owned,
    setupPaymentEvents (activityExecutors rng activity) start g = .ok (log₀, p) ∧
    (LoopState.iteration nodes).Run ⟨p, start⟩ log s ∧
    owned.map Prod.snd = dispatches log ∧ ExecutedAsDescribed activity start s.now owned ∧
    CountsMet activity owned

/-! ## Dividing up the payments -/

/-- If every payment has a possible owner, the payments can be given owners. -/
theorem exists_owned {ι : Type} {owns : ι → Dispatch → Prop} {payments : List Dispatch}
    (h : ∀ d ∈ payments, ∃ i, owns i d) :
    ∃ owned : List (ι × Dispatch), owned.map Prod.snd = payments ∧
      ∀ x ∈ owned, owns x.1 x.2 := by
  induction payments with
  | nil => exact ⟨[], rfl, by simp⟩
  | cons d ds ih =>
    obtain ⟨i, hi⟩ := h d (by simp)
    obtain ⟨owned, hmap, howns⟩ := ih fun d' hd' => h d' (by simp [hd'])
    refine ⟨(i, d) :: owned, by simp [hmap], fun x hx => ?_⟩
    rcases List.mem_cons.mp hx with rfl | hx
    · exact hi
    · exact howns x hx

/-- When owners can be told apart by something that their payments show, what an owner has are the
payments that show it. -/
theorem eventsOf_eq_filter {ι α : Type} [DecidableEq ι] [DecidableEq α] {of : ι → α}
    (shows : Dispatch → α) (hinjective : Function.Injective of) {owned : List (ι × Dispatch)}
    (howns : ∀ x ∈ owned, of x.1 = shows x.2) (i : ι) :
    eventsOf i owned = (owned.map Prod.snd).filter (shows · = of i) := by
  induction owned with
  | nil => rfl
  | cons x owned ih =>
    have hx := howns x (by simp)
    have hiff : x.1 = i ↔ shows x.2 = of i := by
      rw [← hx]
      exact hinjective.eq_iff.symm
    rw [eventsOf_cons, ih fun y hy => howns y (by simp [hy])]
    simp [List.filter_cons, hiff]

/-- Two owners with one source have no more payments together than the source. -/
theorem length_eventsOf_add_le {ι : Type} [DecidableEq ι] {source : PublicKey}
    {owned : List (ι × Dispatch)} {i j : ι} (hij : i ≠ j)
    (hi : ∀ d ∈ eventsOf i owned, d.event.source = source)
    (hj : ∀ d ∈ eventsOf j owned, d.event.source = source) :
    (eventsOf i owned).length + (eventsOf j owned).length
      ≤ (fromSource source (owned.map Prod.snd)).length := by
  induction owned with
  | nil => simp
  | cons x owned ih =>
    rw [eventsOf_cons] at hi hj
    rw [eventsOf_cons, eventsOf_cons, List.map_cons, fromSource, List.filter_cons, ← fromSource]
    by_cases hxi : x.1 = i
    · have hxj : x.1 ≠ j := fun h => hij (hxi.symm.trans h)
      rw [if_pos hxi] at hi ⊢
      rw [if_neg hxj] at hj ⊢
      have hrest := ih (fun d hd => hi d (by simp [hd])) hj
      have hx := hi x.2 (by simp)
      simp only [hx, decide_true, if_true, List.length_cons]
      omega
    · rw [if_neg hxi] at hi ⊢
      by_cases hxj : x.1 = j
      · rw [if_pos hxj] at hj ⊢
        have hrest := ih hi fun d hd => hj d (by simp [hd])
        have hx := hj x.2 (by simp)
        simp only [hx, decide_true, if_true, List.length_cons]
        omega
      · rw [if_neg hxj] at hj ⊢
        refine le_trans (ih hi hj) ?_
        split
        · exact Nat.le_succ _
        · exact le_rfl

/-! ## Distinct sources -/

section Distinct

variable {rng : ThreadRng γ} {nodes : Table PublicKey NodeInfo}
  {activity : List ActivityDefinition} {start : SystemTime} {g g' g'' : γ} {log₀ log : List Activity}
  {p : Producer γ} {s : LoopState γ}

theorem sources_activityExecutors :
    (activityExecutors rng activity).map (·.source) = activity.map (·.source.pubkey) := by
  simp [activityExecutors, Function.comp_def]

/-- What has been checked of accepted activities with fixed amounts. -/
theorem accepted (hvalid : validateActivity rng nodes activity g = .ok g')
    (hamounts : ∀ flow ∈ activity, ∃ amount, flow.amountMsat = .fixed amount) :
    (∀ ex ∈ activityExecutors rng activity, ex.NonZero) ∧
      ∀ ex ∈ activityExecutors rng activity, ex.source ∈ nodes := by
  have hchecked := validateActivity_ok hvalid
  refine ⟨activityExecutors_nonZero fun flow hflow => ?_, fun ex hex => ?_⟩
  · obtain ⟨amount, hfixed⟩ := hamounts flow hflow
    obtain ⟨g₁, g₂, hok⟩ := hchecked flow hflow
    obtain ⟨hnonzero, -, -⟩ := validatePaymentFlow_ok hok
    rw [hfixed] at hnonzero
    exact ⟨amount, hfixed, hnonzero⟩
  · obtain ⟨flow, hflow, rfl⟩ := mem_activityExecutors.mp hex
    obtain ⟨g₁, g₂, hok⟩ := hchecked flow hflow
    exact (validatePaymentFlow_ok hok).2.1

/-- A count is met once the time has passed that so many of the longest delays take. -/
theorem ActivityDefinition.Executed.length_eq {description : ActivityDefinition} {t : SystemTime}
    {payments : List Dispatch} {c : UInt64} {bound : Nat}
    (h : description.Executed start t payments) (hcount : description.count = some c)
    (hbound : c.toNat ≤ bound) (ht : start + bound * maxDelay < t) :
    payments.length = c.toNat := by
  obtain ⟨delays, pending, hdelays, htimes, hmet | hpending⟩ := h.schedule
  · rw [hcount] at hmet
    exact (Option.some.inj hmet).symm
  · have hle := h.capped c hcount
    by_contra hne
    -- with fewer payments than the count, the pending time is before `t`
    have hlength := congrArg List.length htimes
    rw [length_ownSchedule, List.length_append, List.length_map, List.length_singleton] at hlength
    have hmax : ∀ d ∈ delays, d ≤ maxDelay := by
      intro d hd
      obtain ⟨i, hi⟩ := List.mem_iff_getElem?.mp hd
      exact (hdelays i d hi).le_maxDelay
    have hpaid : pending ∈ ownSchedule start delays := by simp [htimes]
    have hlast := ownSchedule_le hmax hpaid
    have hmul : (delays.length : Int) * maxDelay ≤ bound * maxDelay := by
      exact_mod_cast Nat.mul_le_mul_right maxDelay (by omega)
    simp only [SystemTime] at hlast hmul hpending ht
    omega

/-- An activity that waits before each payment makes its payments at increasing times. -/
theorem ActivityDefinition.Executed.increases {description : ActivityDefinition}
    {t : SystemTime} {payments : List Dispatch} (h : description.Executed start t payments)
    (hpos : ∀ completed delay, description.DelayAt completed delay → 0 < delay) :
    (payments.map (·.time)).Pairwise (· < ·) := by
  obtain ⟨delays, pending, hdelays, htimes, -⟩ := h.schedule
  have hdelayed : ∀ delay ∈ delays, 0 < delay := by
    intro delay hdelay
    obtain ⟨i, hi⟩ := List.mem_iff_getElem?.mp hdelay
    exact hpos i delay (hdelays i delay hi)
  have hincreases := (ownSchedule_increases start hdelayed).2
  rw [htimes] at hincreases
  exact (List.pairwise_append.mp hincreases).1

/-- The sources are distinct when no two positions of the list have the same. -/
theorem nodup_iff_injective :
    (activity.map (·.source.pubkey)).Nodup ↔
      Function.Injective fun i => (activity.get i).source.pubkey := by
  rw [← List.nodup_ofFn]
  conv_lhs => rw [← List.ofFn_get activity, List.map_ofFn]
  rfl

/-- With distinct sources every payment has an owner, and what belongs to an activity are the
payments of its source. -/
theorem exists_owned_bySource (hdistinct : (activity.map (·.source.pubkey)).Nodup)
    (hsetup : setupPaymentEvents (activityExecutors rng activity) start g = .ok (log₀, p))
    (hrun : (LoopState.iteration nodes).Run ⟨p, start⟩ log s) :
    ∃ owned : List (Fin activity.length × Dispatch), owned.map Prod.snd = dispatches log ∧
      ∀ i, eventsOf i owned = dispatchesOf (activity.get i).source.pubkey log := by
  have htracked := run_tracked hsetup hrun
  have hsource : ∀ d ∈ dispatches log, ∃ i : Fin activity.length,
      (activity.get i).source.pubkey = d.event.source := by
    intro d hd
    obtain ⟨tracker, -, hex, hsource⟩ := htracked.payer hd
    obtain ⟨flow, hflow, hexecutor⟩ := mem_activityExecutors.mp hex
    obtain ⟨i, rfl⟩ := List.mem_iff_get.mp hflow
    exact ⟨i, by rw [← hsource, ← hexecutor, executor_source]⟩
  obtain ⟨owned, hmap, howns⟩ := exists_owned hsource
  refine ⟨owned, hmap, fun i => ?_⟩
  rw [eventsOf_eq_filter (·.event.source) (nodup_iff_injective.mp hdistinct) howns, hmap, dispatchesOf_eq]
  rfl

/-- With distinct sources the payments of each are those of its activity, up to any time that no
queued event lies before. -/
theorem executed_dispatchesOf (hvalid : validateActivity rng nodes activity g' = .ok g'')
    (hamounts : ∀ flow ∈ activity, ∃ amount, flow.amountMsat = .fixed amount)
    (hdistinct : (activity.map (·.source.pubkey)).Nodup)
    (hsetup : setupPaymentEvents (activityExecutors rng activity) start g = .ok (log₀, p))
    (hrun : (LoopState.iteration nodes).Run ⟨p, start⟩ log s) {t : SystemTime}
    (ht : ∀ e ∈ s.producer.heap.toList, t ≤ e.executionTime) :
    ∀ flow ∈ activity, flow.Executed start t (dispatchesOf flow.source.pubkey log) := by
  intro flow hflow
  have hsources : ((activityExecutors rng activity).map (·.source)).Nodup := by
    rwa [sources_activityExecutors]
  have hnonzero := (accepted hvalid hamounts).1
  have h := run_scheduled hsources activityExecutors_wholeSeconds hnonzero hsetup hrun
  have hex : flow.executor rng ∈ activityExecutors rng activity :=
    mem_activityExecutors.mpr ⟨flow, hflow, rfl⟩
  have hfollows := run_follows hsources activityExecutors_wholeSeconds hnonzero hsetup hrun ht
    _ hex
  constructor
  · intro d hd
    obtain ⟨hmem, hsource⟩ := List.mem_filter.mp hd
    obtain ⟨ex, hex', hexsource, hpays⟩ := h.paid d (by simp [hmem])
    -- one source has one executor, so this payment is of this activity
    obtain rfl : ex = flow.executor rng :=
      h.unique hex' hex (hexsource.trans (by simpa using hsource))
    obtain ⟨hdestination, g₁, hamount⟩ := own_of_pays hpays
    obtain ⟨amount, hfixed⟩ := hamounts flow hflow
    rw [hfixed] at hamount
    exact ⟨hexsource.symm, hdestination, hfixed.trans (congrArg _ hamount.symm)⟩
  · obtain ⟨pending, htimes, hpending⟩ := hfollows.schedule
    refine ⟨_, pending, fun i delay hi => delayAt_of_delays (hfollows.draws i delay hi), htimes, ?_⟩
    simpa [executor_count] using hpending
  · intro c hc
    simpa using hfollows.capped c.toNat (by simp [executor_count, hc])

/-- With distinct sources, waits of at least a second where there is no count, and times that can be
represented, the loop meets all counts. -/
theorem completes_of_distinct (hvalid : validateActivity rng nodes activity g' = .ok g'')
    (hamounts : ∀ flow ∈ activity, ∃ amount, flow.amountMsat = .fixed amount)
    (hdistinct : (activity.map (·.source.pubkey)).Nodup) {bound : Nat}
    (hbound : ∀ flow ∈ activity, ∀ c, flow.count = some c → c.toNat ≤ bound)
    (hroom : start + (bound + 2) * maxDelay < SystemTime.limit)
    (hintervals : ∀ flow ∈ activity,
      flow.count.isSome ∨ ∀ secs, flow.intervalSecs.Contains secs → secs ≠ 0) (g : γ) :
    ∃ log₀ p log s owned,
      setupPaymentEvents (activityExecutors rng activity) start g = .ok (log₀, p) ∧
      (LoopState.iteration nodes).Run ⟨p, start⟩ log s ∧
      owned.map Prod.snd = dispatches log ∧ ExecutedAsDescribed activity start s.now owned ∧
      CountsMet activity owned := by
  have hsources : ((activityExecutors rng activity).map (·.source)).Nodup := by
    rwa [sources_activityExecutors]
  obtain ⟨hnonzero, hnodes⟩ := accepted hvalid hamounts
  -- there is room for one delay after all counts could have been met
  have hdelay : ∀ ex ∈ activityExecutors rng activity, ∀ (i : Nat) (delay : Duration),
      ex.Delays i delay → start + (bound + 1) * maxDelay + delay < SystemTime.limit := by
    intro ex hex i delay hdelays
    obtain ⟨flow, -, rfl⟩ := mem_activityExecutors.mp hex
    have hle := (delayAt_of_delays hdelays).le_maxDelay
    simp only [SystemTime, Duration, maxDelay, Duration.fromSecs, nanosPerSec] at hroom hle ⊢
    push_cast at hroom ⊢
    omega
  have hfirst : ∀ ex ∈ activityExecutors rng activity, ∀ delay : Duration, ex.Delays 0 delay →
      start + delay < SystemTime.limit := by
    intro ex hex delay hdelays
    have hlt := hdelay ex hex 0 delay hdelays
    simp only [SystemTime, maxDelay, Duration.fromSecs, nanosPerSec] at hlt ⊢
    push_cast at hlt
    omega
  obtain ⟨log₀, p, hsetup⟩ := setupPaymentEvents_ok g activityExecutors_neverFails hfirst
  have hwaits : ∀ ex ∈ activityExecutors rng activity,
      ex.count.isSome ∨ ∀ delay, ex.Waits delay → nanosPerSec ≤ delay := by
    intro ex hex
    obtain ⟨flow, hflow, rfl⟩ := mem_activityExecutors.mp hex
    rcases hintervals flow hflow with hcount | hinterval
    · exact .inl (by simpa [executor_count] using hcount)
    · refine .inr fun delay hwait => ?_
      obtain ⟨secs, hsecs, rfl⟩ := interval_of_waits hwait
      have hpos : secs.toNat ≠ 0 := fun h => hinterval secs hsecs (UInt16.toNat.inj h)
      exact Nat.le_mul_of_pos_left _ (Nat.pos_of_ne_zero hpos)
  obtain ⟨log, s, hrun, hgoal⟩ := loop_reaches hsources activityExecutors_wholeSeconds hnonzero
    hnodes activityExecutors_neverFails hwaits hdelay hsetup
  obtain ⟨owned, hmap, howned⟩ := exists_owned_bySource hdistinct hsetup hrun
  have hnow := (run_scheduled hsources activityExecutors_wholeSeconds hnonzero hsetup hrun).now_le
  refine ⟨log₀, p, log, s, owned, hsetup, hrun, hmap, fun i => ?_, fun i c hc => ?_⟩
  · rw [howned i]
    exact executed_dispatchesOf hvalid hamounts hdistinct hsetup hrun hnow _ (List.get_mem _ _)
  · rw [howned i]
    refine (executed_dispatchesOf hvalid hamounts hdistinct hsetup hrun hgoal _
      (List.get_mem _ _)).length_eq hc (hbound _ (List.get_mem _ _) c hc) ?_
    simp only [SystemTime, maxDelay, Duration.fromSecs, nanosPerSec]
    push_cast
    omega

end Distinct

/-! ## Shared sources -/

/-- The tracker of a source counts for all its activities, so that their counts cannot all be met:
the one that the tracker was set up for leaves nothing for another. -/
theorem nodup_of_countsMet {rng : ThreadRng γ} {nodes : Table PublicKey NodeInfo}
    {activity : List ActivityDefinition} {start now : SystemTime} {g : γ}
    {log₀ log : List Activity} {p : Producer γ} {s : LoopState γ}
    {owned : List (Fin activity.length × Dispatch)}
    (hcounts : ∀ i j, i ≠ j →
      (activity.get i).source.pubkey = (activity.get j).source.pubkey →
      ∃ c, (activity.get i).count = some c ∧ c ≠ 0)
    (hsetup : setupPaymentEvents (activityExecutors rng activity) start g = .ok (log₀, p))
    (hrun : (LoopState.iteration nodes).Run ⟨p, start⟩ log s)
    (hmap : owned.map Prod.snd = dispatches log)
    (hexecuted : ExecutedAsDescribed activity start now owned) (hmet : CountsMet activity owned) :
    (activity.map (·.source.pubkey)).Nodup := by
  refine nodup_iff_injective.mpr fun i j hij => ?_
  by_contra hne
  have htracked := run_tracked hsetup hrun
  have hfrom : ∀ k, ∀ d ∈ eventsOf k owned, d.event.source = (activity.get k).source.pubkey :=
    fun k d hd => ((hexecuted k).own d hd).1
  obtain ⟨m, hsource, hcapped⟩ : ∃ m, (activity.get m).source.pubkey
      = (activity.get i).source.pubkey ∧ ∀ c, (activity.get m).count = some c →
        (fromSource (activity.get m).source.pubkey (dispatches log)).length ≤ c.toNat := by
    obtain ⟨c, hc, hpos⟩ := hcounts i j hne hij
    -- a payment that belongs to `i` was made by the executor in the tracker, that of `m`
    obtain ⟨d, hd⟩ := List.exists_mem_of_length_pos
      (l := eventsOf i owned) (by rw [hmet i c hc]; exact Nat.pos_of_ne_zero fun h => hpos (UInt64.toNat.inj h))
    have hmem : d ∈ dispatches log := hmap ▸ List.mem_map_of_mem (mem_eventsOf.mp hd)
    obtain ⟨tracker, hlookup, hex, hexsource⟩ := htracked.payer hmem
    rw [hfrom i d hd] at hlookup hexsource
    obtain ⟨flow, hflow, hexecutor⟩ := mem_activityExecutors.mp hex
    obtain ⟨m, rfl⟩ := List.mem_iff_get.mp hflow
    rw [← hexecutor, executor_source] at hexsource
    refine ⟨m, hexsource, fun c hc => ?_⟩
    rw [hexsource]
    exact htracked.capped hlookup (by rw [← hexecutor, executor_count, hc]; rfl)
  -- `k` is one of the two that the tracker was not set up for
  obtain ⟨k, hmk, hk⟩ : ∃ k, m ≠ k ∧
      (activity.get k).source.pubkey = (activity.get m).source.pubkey := by
    by_cases hmi : m = i
    · exact ⟨j, hmi ▸ hne, by rw [hmi]; exact hij.symm⟩
    · exact ⟨i, hmi, hsource.symm⟩
  obtain ⟨c, hc, -⟩ := hcounts m k hmk hk.symm
  obtain ⟨c', hc', hpos⟩ := hcounts k m hmk.symm hk
  -- together the two would have more payments than the tracker lets the source make
  have hle := length_eventsOf_add_le hmk (hfrom m) (fun d hd => (hfrom k d hd).trans hk)
  have hcap := hcapped c hc
  rw [hmap, hmet m c hc, hmet k c' hc'] at hle
  have hzero : c'.toNat = 0 := by omega
  exact hpos (UInt64.toNat.inj hzero)

/-! ## The exact condition -/

/-- Accepted activities with fixed amounts are executed as described when no two share a source.
Where two do and both have a count, they are not: so with times that can be represented, and waits
of at least a second where there is no count, distinct sources are the exact condition. -/
theorem executesAsDescribed_iff {rng : ThreadRng γ} {nodes : Table PublicKey NodeInfo}
    {activity : List ActivityDefinition} {g g' : γ}
    (hvalid : validateActivity rng nodes activity g = .ok g')
    (hamounts : ∀ flow ∈ activity, ∃ amount, flow.amountMsat = .fixed amount)
    (start : SystemTime) (g₀ : γ) :
    ((activity.map (·.source.pubkey)).Nodup → ∀ log₀ p log s,
      setupPaymentEvents (activityExecutors rng activity) start g₀ = .ok (log₀, p) →
      (LoopState.iteration nodes).Run ⟨p, start⟩ log s →
      ∃ owned, owned.map Prod.snd = dispatches log ∧
        ExecutedAsDescribed activity start s.now owned) ∧
    ∀ bound : Nat, (∀ flow ∈ activity, ∀ c, flow.count = some c → c.toNat ≤ bound) →
      start + (bound + 2) * maxDelay < SystemTime.limit →
      (∀ flow ∈ activity,
        flow.count.isSome ∨ ∀ secs, flow.intervalSecs.Contains secs → secs ≠ 0) →
      (∀ i j, i ≠ j → (activity.get i).source.pubkey = (activity.get j).source.pubkey →
        ∃ c, (activity.get i).count = some c ∧ c ≠ 0) →
      (ExecutesAsDescribed rng nodes activity start g₀ ↔
        (activity.map (·.source.pubkey)).Nodup) := by
  have hthroughout : (activity.map (·.source.pubkey)).Nodup → ∀ log₀ p log s,
      setupPaymentEvents (activityExecutors rng activity) start g₀ = .ok (log₀, p) →
      (LoopState.iteration nodes).Run ⟨p, start⟩ log s →
      ∃ owned, owned.map Prod.snd = dispatches log ∧
        ExecutedAsDescribed activity start s.now owned := by
    intro hdistinct log₀ p log s hsetup hrun
    have hsources : ((activityExecutors rng activity).map (·.source)).Nodup := by
      rwa [sources_activityExecutors]
    have hnow := (run_scheduled hsources activityExecutors_wholeSeconds
      (accepted hvalid hamounts).1 hsetup hrun).now_le
    obtain ⟨owned, hmap, howned⟩ := exists_owned_bySource hdistinct hsetup hrun
    refine ⟨owned, hmap, fun i => ?_⟩
    rw [howned i]
    exact executed_dispatchesOf hvalid hamounts hdistinct hsetup hrun hnow _ (List.get_mem _ _)
  refine ⟨hthroughout, fun bound hbound hroom hintervals hcounts => ⟨fun h => ?_, fun hdistinct =>
    ⟨hthroughout hdistinct,
      completes_of_distinct hvalid hamounts hdistinct hbound hroom hintervals g₀⟩⟩⟩
  obtain ⟨log₀, p, log, s, owned, hsetup, hrun, hmap, hexecuted, hmet⟩ := h.completes
  exact nodup_of_countsMet hcounts hsetup hrun hmap hexecuted hmet

/-- Two nodes that pay each other are executed as described. -/
theorem executesAsDescribed_iff_twoNodes :
    ExecutesAsDescribed lowestRng sampleNodes
      [sampleActivity 1 2 2 2, sampleActivity 2 1 1 4] 0 () := by
  have hvalid : validateActivity lowestRng sampleNodes
      [sampleActivity 1 2 2 2, sampleActivity 2 1 1 4] () = .ok () := rfl
  refine ((executesAsDescribed_iff hvalid ?_ 0 ()).2 2 ?_ (by decide) ?_ ?_).mpr (by decide)
  · intro flow hflow
    rcases List.mem_pair.mp hflow with rfl | rfl <;> exact ⟨1000, rfl⟩
  · intro flow hflow c hc
    rcases List.mem_pair.mp hflow with rfl | rfl <;> cases hc <;> decide
  · intro flow hflow
    rcases List.mem_pair.mp hflow with rfl | rfl <;> exact .inl rfl
  · decide

/-- Of two accepted activities of one payment each that share their source, only one payment is ever
dispatched. -/
theorem sharedSource_misses :
    validateActivity lowestRng sampleNodes [sampleActivity 1 2 1 1, sampleActivity 1 3 1 2] ()
      = .ok () ∧
    (∀ log₀ p log s,
      setupPaymentEvents (activityExecutors lowestRng
        [sampleActivity 1 2 1 1, sampleActivity 1 3 1 2]) 0 () = .ok (log₀, p) →
      (LoopState.iteration sampleNodes).Run ⟨p, 0⟩ log s → (dispatches log).length ≤ 1) ∧
    ¬ExecutesAsDescribed lowestRng sampleNodes
      [sampleActivity 1 2 1 1, sampleActivity 1 3 1 2] 0 () := by
  have hexecutors : ∀ ex ∈ activityExecutors lowestRng
      [sampleActivity 1 2 1 1, sampleActivity 1 3 1 2], ex.source = ⟨1⟩ ∧ ex.count = some 1 := by
    intro ex hex
    obtain ⟨flow, hflow, rfl⟩ := mem_activityExecutors.mp hex
    rcases List.mem_pair.mp hflow with rfl | rfl <;> exact ⟨rfl, rfl⟩
  refine ⟨rfl, fun log₀ p log s hsetup hrun => ?_, fun h => ?_⟩
  · have htracked := run_tracked hsetup hrun
    have hsource : ∀ d ∈ dispatches log, d.event.source = ⟨1⟩ := by
      intro d hd
      obtain ⟨tracker, -, hex, hsource⟩ := htracked.payer hd
      rw [← hsource, (hexecutors _ hex).1]
    have hall : fromSource ⟨1⟩ (dispatches log) = dispatches log :=
      List.filter_eq_self.mpr fun d hd => by simp [hsource d hd]
    cases hdispatches : dispatches log with
    | nil => simp
    | cons d ds =>
      have hd : d ∈ dispatches log := by simp [hdispatches]
      obtain ⟨tracker, hlookup, hex, -⟩ := htracked.payer hd
      have hcapped := htracked.capped hlookup (hexecutors _ hex).2
      rwa [hsource d hd, hall, hdispatches] at hcapped
  · obtain ⟨log₀, p, log, s, owned, hsetup, hrun, hmap, hexecuted, hmet⟩ := h.completes
    have hnodup := nodup_of_countsMet (by decide) hsetup hrun hmap hexecuted hmet
    revert hnodup
    decide

/-! ## The example of the user guide -/

/-- The activities that the guide describes, from Alice (1) to Carol (3), from Bob (2) to Alice and to
Dave (4), and from Erin (5) to Frank (6). Only the last has a count, and Bob is the source of two. -/
def guideActivity : List ActivityDefinition :=
  [{ sampleActivity 1 3 0 1 with count := none, amountMsat := .fixed 2000 },
    { sampleActivity 2 1 0 50 with count := none, amountMsat := .fixed 140000 },
    { sampleActivity 2 4 0 2 with count := none },
    { sampleActivity 5 6 10 2 with startSecs := some 20, amountMsat := .fixed 5000 }]

def guideNodes : Table PublicKey NodeInfo :=
  (sampleNodes.insert ⟨5⟩ (sampleNode 5)).insert ⟨6⟩ (sampleNode 6)

/-- The activity that pays Dave. -/
def toDave : Fin guideActivity.length := ⟨2, by decide⟩

/-- The times of the payments to Dave in the first rounds of the loop. -/
def guideTimes (rounds : Nat) : Option (List SystemTime) :=
  (setupPaymentEvents (activityExecutors lowestRng guideActivity) 0 ()).toOption.bind fun setup =>
    ((LoopState.iteration guideNodes).iterate rounds ⟨setup.2, 0⟩).map fun run =>
      ((dispatches run.1).filter (·.event.destination = sampleNode 4)).map (·.time)

/-- After the one payment from Bob to Alice, which is due after 50 seconds, both of Bob's events are
payments to Dave. -/
theorem guideTimes_repeat : guideTimes 92 = some (List.map (fun secs : Nat => (Duration.fromSecs secs : ℤ))
    [2, 4, 6, 8, 10, 12, 14, 16, 18, 20, 22, 24, 26, 28, 30, 32, 34, 36, 38, 40, 42, 44, 46, 48, 50, 52,
      52]) := by
  decide +kernel

theorem exists_guideRun : ∃ setup log s,
    setupPaymentEvents (activityExecutors lowestRng guideActivity) 0 () = .ok setup ∧
    (LoopState.iteration guideNodes).Run ⟨setup.2, 0⟩ log s ∧
    ¬ (((dispatches log).filter (·.event.destination = sampleNode 4)).map (·.time)).Pairwise (· < ·) := by
  have htimes := guideTimes_repeat
  unfold guideTimes at htimes
  cases hsetup : setupPaymentEvents (activityExecutors lowestRng guideActivity) 0 () with
  | error e =>
    rw [hsetup] at htimes
    cases htimes
  | ok setup =>
    rw [hsetup] at htimes
    obtain ⟨⟨log, s⟩, hrun, htimes⟩ := Option.map_eq_some_iff.mp htimes
    refine ⟨setup, log, s, rfl, Loop.run_of_iterate hrun, ?_⟩
    dsimp only at htimes
    rw [htimes]
    decide

/-- The guide's own example is accepted and not executed as described: no schedule of payments every two
seconds has two in one second. -/
theorem guideActivity_misses :
    validateActivity lowestRng guideNodes guideActivity () = .ok () ∧
      ¬ExecutesAsDescribed lowestRng guideNodes guideActivity 0 () := by
  refine ⟨rfl, fun h => ?_⟩
  obtain ⟨setup, log, s, hsetup, hrun, htwice⟩ := exists_guideRun
  obtain ⟨owned, hmap, hexecuted⟩ := h.throughout _ _ log s hsetup hrun
  -- the activities have different destinations, and only one of them is Dave
  have howns : ∀ x ∈ owned, (guideActivity.get x.1).destination = x.2.event.destination :=
    fun x hx => ((hexecuted x.1).own x.2 (mem_eventsOf.mpr hx)).2.1.symm
  have hdestinations : Function.Injective fun i => (guideActivity.get i).destination := by decide
  have hdave := eventsOf_eq_filter (·.event.destination) hdestinations howns toDave
  rw [hmap] at hdave
  apply htwice
  have hincreases := (hexecuted toDave).increases fun i delay hdelay => ?_
  · rw [hdave] at hincreases
    exact hincreases
  · rw [ActivityDefinition.DelayAt, if_neg (by rintro ⟨-, hstart⟩; cases hstart)] at hdelay
    obtain ⟨secs, hsecs, rfl⟩ := hdelay
    obtain rfl : secs = 2 := hsecs
    decide

end SimLn
