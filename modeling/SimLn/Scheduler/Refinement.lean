import SimLn.Scheduler.Defined

/-!
# SimLn — the scheduler refines the schedules of its sources

`FollowsSchedule` is the abstract behaviour of one source: it pays at the times of its own schedule
and stops at its count. `scheduler_refines_schedules` shows that this is what the scheduler's log
is for every source, in the order of time and key; that the loop ends once all counts are met; and
that it gets past every time otherwise.

The delays have to be whole seconds below `2 ^ 53`: the sleep is computed in `f64` and rounded, and
`roundedSleep_misses` has a start delay and a wait for which it ends at another time.
-/

namespace SimLn

open Lib

variable {γ : Type}

/-- A source that has drawn `delays` by `now` has paid at the times of its schedule, up to a pending
one that its count rules out or that is not yet past. -/
structure FollowsSchedule (ex : ExecutorKit γ) (start now : SystemTime) (delays : List Duration)
    (times : List SystemTime) : Prop where
  draws : ex.Draws delays
  schedule : ∃ pending, ownSchedule start delays = times ++ [pending] ∧
    (ex.count = some times.length ∨ now ≤ pending)
  capped : ∀ c, ex.count = some c → times.length ≤ c

/-! ## What a state on schedule has paid -/

section State

variable {executors : List (ExecutorKit γ)} {start : SystemTime} {log : List Activity}
  {s : LoopState γ} {nodes : Table PublicKey NodeInfo}

/-- What is paid by a time that no queued event lies before. -/
theorem Scheduled.follows (h : Scheduled executors start log s)
    (htracked : Tracked executors (dispatches log) s.producer) {ex : ExecutorKit γ}
    (hex : ex ∈ executors) {t : SystemTime}
    (ht : ∀ e ∈ s.producer.heap.toList, t ≤ e.executionTime) :
    FollowsSchedule ex start t (delaysOf ex.source log)
      ((dispatchesOf ex.source log).map (·.time)) := by
  have hown := h.onSchedule ex hex
  obtain ⟨pending, htimes, hpending⟩ := hown.position
  refine ⟨hown.draws, ⟨pending, htimes, ?_⟩, fun c hc => ?_⟩
  · rcases hpending with ⟨e, he, -, rfl⟩ | ⟨-, hcount⟩
    · exact .inr (ht e he)
    · left
      simpa using hcount
  · simpa [dispatchesOf_eq] using htracked.capped hown.tracker hc

/-- No queued event lies before the current time. -/
theorem Scheduled.now_le (h : Scheduled executors start log s) :
    ∀ e ∈ s.producer.heap.toList, s.now ≤ e.executionTime := by
  intro e he
  obtain ⟨secs, -, htime⟩ := h.ahead e he
  simp only [SystemTime] at htime ⊢
  omega

/-- Once the heap is empty every source has met its count. -/
theorem Scheduled.count_of_empty (h : Scheduled executors start log s)
    (hempty : s.producer.heap.toList = []) {ex : ExecutorKit γ} (hex : ex ∈ executors) :
    ex.count = some (dispatchesOf ex.source log).length := by
  obtain ⟨pending, -, ⟨e, he, -⟩ | ⟨-, hcount⟩⟩ := (h.onSchedule ex hex).position
  · simp [hempty] at he
  · exact hcount

/-- A loop that returns has emptied the heap, or cannot represent the time that follows the one
due next. -/
theorem Scheduled.returned {result : Except SimulationError Unit}
    (h : Scheduled executors start log s) (hnonzero : ∀ ex ∈ executors, ex.NonZero)
    (hnodes : ∀ ex ∈ executors, ex.source ∈ nodes) (hfails : ∀ ex ∈ executors, ex.NeverFails)
    (hreturned : LoopState.iteration nodes s = .returned result) :
    (result = .ok () ∧ s.producer.heap.toList = []) ∨
    ∃ ex ∈ executors, ∃ delay : Duration, ∃ event ∈ s.producer.heap.toList,
      (∀ e ∈ s.producer.heap.toList, event.executionTime ≤ e.executionTime) ∧
      ex.Draws (delaysOf ex.source log ++ [delay]) ∧
      ownSchedule start (delaysOf ex.source log ++ [delay])
        = (dispatchesOf ex.source log).map (·.time) ++ [event.executionTime]
            ++ [event.executionTime + delay] ∧
      ex.count ≠ some (dispatchesOf ex.source log).length ∧
      SystemTime.limit ≤ event.executionTime + delay := by
  rcases iteration_returned hreturned with hok | ⟨event, rest, e, hpop, -, hcause⟩
  · exact .inl hok
  right
  obtain ⟨-, ex, hex, hsource, hpays, htimes⟩ := h.popped hpop
  have hown := h.onSchedule ex hex
  rcases hcause with hlookup | hnode | ⟨hamount, -⟩ | ⟨tracker, htracker, hunmet, hgenerate⟩
  · rw [← hsource, hown.tracker] at hlookup
    cases hlookup
  -- the source is a node, pays no zero amounts and draws without an error: the clock is left
  · exact absurd (hsource ▸ hnodes ex hex) hnode
  · exact absurd hamount (hnonzero ex hex _ _ hpays)
  · rw [← hsource, hown.tracker] at htracker
    cases htracker
    rw [h.wakes hpop] at hgenerate
    obtain ⟨-, delay, hdelay, hlimit⟩ := Producer.generatePayment_error
      (AList.lookup_insert _) (hfails ex hex) hgenerate
    have hlength : (delaysOf ex.source log).length = (dispatchesOf ex.source log).length + 1 := by
      simpa using congrArg List.length htimes
    refine ⟨ex, hex, delay, event, by simp [MinHeap.toList_of_pop hpop], fun e he => ?_,
      hown.draws.snoc (by rw [hlength]; exact hdelay), ownSchedule_snoc delay htimes, hunmet,
      hlimit⟩
    rw [MinHeap.toList_of_pop hpop] at he
    rcases List.mem_cons.mp he with rfl | he
    · exact le_rfl
    · exact PaymentEvent.time_le_of_key_le (MinHeap.le_of_pop hpop he)

end State

/-! ## Getting to the end -/

/-- Setting up fails only when the time of a first event cannot be represented. -/
theorem setupExecutors_error {start : SystemTime} {left : List (ExecutorKit γ)} {p : Producer γ}
    {e : SimulationError} (hfails : ∀ ex ∈ left, ex.NeverFails)
    (h : setupExecutors start left p = .error e) :
    ∃ ex ∈ left, ∃ delay : Duration, ex.Delays 0 delay ∧ SystemTime.limit ≤ start + delay := by
  induction left generalizing p e with
  | nil => cases h
  | cons ex rest ih =>
    rw [setupExecutors] at h
    split at h
    next hgenerate =>
      obtain ⟨-, delay, hdelay, hlimit⟩ := Producer.generatePayment_error
        (AList.lookup_insert _) (hfails ex (by simp)) hgenerate
      exact ⟨ex, by simp, delay, hdelay, hlimit⟩
    next delay q hgenerate =>
      split at h
      next hrest =>
        obtain ⟨ex', hex', hdelay⟩ := ih (fun ex' hex' => hfails ex' (by simp [hex'])) hrest
        exact ⟨ex', by simp [hex'], hdelay⟩
      · cases h

theorem setupPaymentEvents_ok {executors : List (ExecutorKit γ)} {start : SystemTime} (g : γ)
    (hfails : ∀ ex ∈ executors, ex.NeverFails)
    (hroom : ∀ ex ∈ executors, ∀ delay : Duration, ex.Delays 0 delay →
      start + delay < SystemTime.limit) :
    ∃ log₀ p, setupPaymentEvents executors start g = .ok (log₀, p) := by
  have hsorted := List.perm_insertionSort
    (fun ex1 ex2 : ExecutorKit γ => ex1.source ≤ ex2.source) executors
  cases hsetup : setupPaymentEvents executors start g with
  | ok result => exact ⟨result.1, result.2, rfl⟩
  | error e =>
    exfalso
    obtain ⟨ex, hex, delay, hdelay, hlimit⟩ := setupExecutors_error
      (fun ex hex => hfails ex (hsorted.mem_iff.mp hex)) hsetup
    exact absurd hlimit (not_le.mpr (hroom ex (hsorted.mem_iff.mp hex) delay hdelay))

/-- When every delay is at least a second, the times of a schedule are as far apart. -/
theorem ownSchedule_spread {start t : SystemTime} {delays : List Duration} {i : Nat}
    (hdelays : ∀ d ∈ delays, nanosPerSec ≤ d) (h : (ownSchedule start delays)[i]? = some t) :
    start + (i + 1) * nanosPerSec ≤ t := by
  induction delays generalizing start i with
  | nil => simp at h
  | cons delay delays ih =>
    have hdelay := hdelays delay (by simp)
    rw [ownSchedule_cons] at h
    cases i with
    | zero =>
      simp only [List.getElem?_cons_zero, Option.some.injEq] at h
      simp only [SystemTime] at h ⊢
      omega
    | succ i =>
      have hrest := ih (fun d hd => hdelays d (by simp [hd])) h
      simp only [SystemTime, nanosPerSec] at hrest hdelay ⊢
      push_cast
      omega

section Loop

variable {executors : List (ExecutorKit γ)} {start : SystemTime} {g : γ} {p : Producer γ}
  {nodes : Table PublicKey NodeInfo} {s : LoopState γ} {log₀ log : List Activity}

/-- Every run follows the schedules of its sources, up to any time that no queued event lies
before. -/
theorem run_follows (hdistinct : (executors.map (·.source)).Nodup)
    (hseconds : ∀ ex ∈ executors, ex.WholeSeconds) (hnonzero : ∀ ex ∈ executors, ex.NonZero)
    (hsetup : setupPaymentEvents executors start g = .ok (log₀, p))
    (hrun : (LoopState.iteration nodes).Run ⟨p, start⟩ log s) {t : SystemTime}
    (ht : ∀ e ∈ s.producer.heap.toList, t ≤ e.executionTime) :
    ∀ ex ∈ executors, FollowsSchedule ex start t (delaysOf ex.source (log₀ ++ log))
      ((dispatchesOf ex.source log).map (·.time)) := by
  intro ex hex
  have h := run_scheduled hdistinct hseconds hnonzero hsetup hrun
  have hnone := (tracked_setupPaymentEvents hsetup).2
  have htracked : Tracked executors (dispatches (log₀ ++ log)) s.producer := by
    simpa [hnone] using run_tracked hsetup hrun
  have hfollows := h.follows htracked hex ht
  rwa [dispatchesOf, dispatches_append, hnone, List.nil_append] at hfollows

theorem dispatchesOf_setup (hsetup : setupPaymentEvents executors start g = .ok (log₀, p))
    (source : PublicKey) (log : List Activity) :
    dispatchesOf source (log₀ ++ log) = dispatchesOf source log := by
  simp [dispatchesOf, (tracked_setupPaymentEvents hsetup).2]

/-- If no source pays more often than a bound before the goal is reached, the loop reaches it or
returns: until then every round decreases the measure. -/
theorem exists_stop {G : LoopState γ → Prop} (bound : Nat)
    (hdistinct : (executors.map (·.source)).Nodup)
    (hseconds : ∀ ex ∈ executors, ex.WholeSeconds) (hnonzero : ∀ ex ∈ executors, ex.NonZero)
    (hsetup : setupPaymentEvents executors start g = .ok (log₀, p))
    (hbound : ∀ log s, (LoopState.iteration nodes).Run ⟨p, start⟩ log s → ¬G s →
      ∀ ex ∈ executors, (dispatchesOf ex.source log).length ≤ bound) :
    ∃ log s, (LoopState.iteration nodes).Run ⟨p, start⟩ log s ∧
      (G s ∨ ∃ r, LoopState.iteration nodes s = .returned r) := by
  refine Lib.Loop.Run.exists_stop (fun s => s.producer.remaining fun _ => bound)
    (fun log s events s' hrun hgoal hnext => ?_) .start
  have h := run_scheduled hdistinct hseconds hnonzero hsetup hrun
  refine remaining_lt_of_round (iteration_round hnext) (fun e he => ?_) (fun e he => ?_)
  · obtain ⟨ex, hex, hsource, -⟩ := h.known e he
    have hcompleted : s.producer.completed e.source = (dispatchesOf ex.source log).length := by
      rw [← hsource, Producer.completed, (h.onSchedule ex hex).tracker,
        dispatchesOf_setup hsetup]
      rfl
    rw [hcompleted]
    exact hbound log s hrun hgoal ex hex
  · obtain ⟨ex, hex, -, hpays⟩ := h.known e he
    exact hnonzero ex hex _ _ hpays

/-- A count is at most the total of all counts. -/
theorem count_le_total {ex : ExecutorKit γ} {c : Nat} (hex : ex ∈ executors)
    (hc : ex.count = some c) : c ≤ (executors.map fun ex => ex.count.getD 0).sum := by
  have hmem : c ∈ executors.map fun ex => ex.count.getD 0 :=
    List.mem_map.mpr ⟨ex, hex, by simp [hc]⟩
  exact List.single_le_sum (fun _ _ => Nat.zero_le _) c hmem

/-- With a count for every source and room for its schedule, the loop ends with all counts met. -/
theorem loop_finishes (hdistinct : (executors.map (·.source)).Nodup)
    (hseconds : ∀ ex ∈ executors, ex.WholeSeconds) (hnonzero : ∀ ex ∈ executors, ex.NonZero)
    (hnodes : ∀ ex ∈ executors, ex.source ∈ nodes) (hfails : ∀ ex ∈ executors, ex.NeverFails)
    (hcounts : ∀ ex ∈ executors, ex.count.isSome) (hfits : ∀ ex ∈ executors, ex.Fits start)
    (hsetup : setupPaymentEvents executors start g = .ok (log₀, p)) :
    ∃ log s, (LoopState.iteration nodes).Run ⟨p, start⟩ log s ∧
      LoopState.iteration nodes s = .returned (.ok ()) ∧
      ∀ ex ∈ executors, ex.count = some (dispatchesOf ex.source log).length := by
  obtain ⟨log, s, hrun, hfalse | ⟨r, hreturned⟩⟩ := exists_stop (G := fun _ => False)
    (executors.map fun ex => ex.count.getD 0).sum hdistinct hseconds hnonzero hsetup
    fun log s hrun _ ex hex => by
      obtain ⟨c, hc⟩ := Option.isSome_iff_exists.mp (hcounts ex hex)
      have hown := (run_scheduled hdistinct hseconds hnonzero hsetup hrun).onSchedule ex hex
      exact le_trans ((run_tracked hsetup hrun).capped hown.tracker hc) (count_le_total hex hc)
  -- the goal is unreachable, so that the loop returns
  · exact hfalse.elim
  have h := run_scheduled hdistinct hseconds hnonzero hsetup hrun
  rcases h.returned hnonzero hnodes hfails hreturned with
    ⟨rfl, hempty⟩ | ⟨ex, hex, delay, event, -, -, hdraws, htimes, hunmet, hlimit⟩
  · refine ⟨log, s, hrun, hreturned, fun ex hex => ?_⟩
    rw [h.count_of_empty hempty hex, dispatchesOf_setup hsetup]
  · exfalso
    obtain ⟨c, hc⟩ := Option.isSome_iff_exists.mp (hcounts ex hex)
    have hown := h.onSchedule ex hex
    rw [dispatchesOf_setup hsetup] at hunmet htimes
    have hle := (run_tracked hsetup hrun).capped hown.tracker hc
    -- the delay that overflowed is within the count, where the schedule fits
    have hlt : (dispatchesOf ex.source log).length < c :=
      lt_of_le_of_ne hle fun heq => hunmet (heq ▸ hc)
    have hlength := congrArg List.length htimes
    rw [length_ownSchedule] at hlength
    simp only [List.length_append, List.length_map, List.length_singleton] at hlength
    have hshort : (delaysOf ex.source (log₀ ++ log) ++ [delay]).length ≤ c + 1 := by
      rw [List.length_append, List.length_singleton]
      omega
    have hfit := hfits ex hex c _ hc hdraws hshort
    rw [htimes] at hfit
    exact absurd hlimit (not_le.mpr (hfit _ (by simp)))

/-- A source whose waits last at least a second has paid at most once in every second. -/
theorem paid_le_of_spread (hdistinct : (executors.map (·.source)).Nodup)
    (hseconds : ∀ ex ∈ executors, ex.WholeSeconds) (hnonzero : ∀ ex ∈ executors, ex.NonZero)
    (hsetup : setupPaymentEvents executors start g = .ok (log₀, p))
    (hrun : (LoopState.iteration nodes).Run ⟨p, start⟩ log s) {ex : ExecutorKit γ}
    (hex : ex ∈ executors) (hwaits : ∀ delay, ex.Waits delay → nanosPerSec ≤ delay)
    {t : SystemTime} (ht : ∀ d ∈ dispatches log, d.time ≤ t) :
    (dispatchesOf ex.source log).length ≤ (t - start).toNat + 1 := by
  have h := run_scheduled hdistinct hseconds hnonzero hsetup hrun
  obtain ⟨pending, htimes, -⟩ := (h.onSchedule ex hex).position
  rw [dispatchesOf_setup hsetup] at htimes
  cases hdelays : delaysOf ex.source (log₀ ++ log) with
  | nil =>
    rw [hdelays] at htimes
    simp at htimes
  | cons first delays =>
    have hdraws := (h.onSchedule ex hex).draws
    rw [hdelays] at htimes hdraws
    rw [ownSchedule_cons] at htimes
    have hspread : ∀ d ∈ delays, nanosPerSec ≤ d := by
      intro d hd
      obtain ⟨i, hi⟩ := List.mem_iff_getElem?.mp hd
      have hdelay := hdraws (i + 1) d (by simpa using hi)
      exact hwaits d (by simpa [ExecutorKit.Delays] using hdelay)
    cases hn : (dispatchesOf ex.source log).length with
    | zero => omega
    | succ n =>
      cases n with
      | zero => omega
      | succ n =>
        -- the last of at least two payments comes `n + 1` waits after the first
        obtain ⟨d, hd⟩ : ∃ d, (dispatchesOf ex.source log)[n + 1]? = some d :=
          ⟨_, List.getElem?_eq_getElem (by omega)⟩
        have hlast : (ownSchedule (start + first) delays)[n]? = some d.time := by
          have hget := congrArg (·[n + 1]?) htimes
          simp only [List.getElem?_cons_succ] at hget
          rw [List.getElem?_append_left (by rw [List.length_map]; omega), List.getElem?_map,
            hd] at hget
          exact hget
        have hge := ownSchedule_spread hspread hlast
        have hle := ht d (List.mem_filter.mp (List.mem_of_getElem? hd)).1
        simp only [SystemTime, nanosPerSec] at hge hle ⊢
        omega

/-- If sources without a count wait at least a second, the loop gets past every time that leaves
room for one more delay: all events due before are dispatched. -/
theorem loop_reaches (hdistinct : (executors.map (·.source)).Nodup)
    (hseconds : ∀ ex ∈ executors, ex.WholeSeconds) (hnonzero : ∀ ex ∈ executors, ex.NonZero)
    (hnodes : ∀ ex ∈ executors, ex.source ∈ nodes) (hfails : ∀ ex ∈ executors, ex.NeverFails)
    (hwaits : ∀ ex ∈ executors, ex.count.isSome ∨ ∀ delay, ex.Waits delay → nanosPerSec ≤ delay)
    {t : SystemTime} (hroom : ∀ ex ∈ executors, ∀ (i : Nat) (delay : Duration),
      ex.Delays i delay → t + delay < SystemTime.limit)
    (hsetup : setupPaymentEvents executors start g = .ok (log₀, p)) :
    ∃ log s, (LoopState.iteration nodes).Run ⟨p, start⟩ log s ∧
      ∀ e ∈ s.producer.heap.toList, t ≤ e.executionTime := by
  obtain ⟨log, s, hrun, hgoal | ⟨r, hreturned⟩⟩ := exists_stop
    (G := fun s => ∀ e ∈ s.producer.heap.toList, t ≤ e.executionTime)
    ((executors.map fun ex => ex.count.getD 0).sum + (t - start).toNat + 1)
    hdistinct hseconds hnonzero hsetup
    fun log s hrun hgoal ex hex => by
      have h := run_scheduled hdistinct hseconds hnonzero hsetup hrun
      rcases hwaits ex hex with hcount | hwait
      -- a source with a count pays no more often than that
      · obtain ⟨c, hc⟩ := Option.isSome_iff_exists.mp hcount
        have hown := h.onSchedule ex hex
        have hle := (run_tracked hsetup hrun).capped hown.tracker hc
        have htotal := count_le_total hex hc
        rw [dispatchesOf_eq]
        omega
      -- any other source has paid at most once a second up to the event that is due before `t`
      · push Not at hgoal
        obtain ⟨e, he, hlt⟩ := hgoal
        have hpaid := paid_le_of_spread hdistinct hseconds hnonzero hsetup hrun hex hwait
          (t := t) fun d hd => ?_
        · omega
        · have hkey := h.past d (by simp [hd]) e he
          have htime := h.exact d (by simp [hd])
          rw [Dispatch.key, htime] at hkey
          rw [htime]
          exact le_of_lt (lt_of_le_of_lt (PaymentEvent.time_le_of_key_le hkey) hlt)
  · exact ⟨log, s, hrun, hgoal⟩
  have h := run_scheduled hdistinct hseconds hnonzero hsetup hrun
  refine ⟨log, s, hrun, ?_⟩
  rcases h.returned hnonzero hnodes hfails hreturned with
    ⟨-, hempty⟩ | ⟨ex, hex, delay, event, hevent, hfirst, hdraws, -, -, hlimit⟩
  · simp [hempty]
  · intro e he
    by_contra hlt
    -- a time past the last one would need a delay longer than the room there is
    have hdelay := hdraws _ delay List.getElem?_concat_length
    have hroom' := hroom ex hex _ delay hdelay
    have hfirst' := hfirst e he
    simp only [SystemTime] at hroom' hfirst' hlt hlimit
    omega

end Loop

/-- A source is one of a list of distinct ones. -/
theorem sum_indicator {sources : List PublicKey} (hdistinct : sources.Nodup) {source : PublicKey}
    (hmem : source ∈ sources) : (sources.map fun s => if s = source then 1 else 0).sum = 1 := by
  induction sources with
  | nil => simp at hmem
  | cons s rest ih =>
    obtain ⟨hnotin, hrest⟩ := List.nodup_cons.mp hdistinct
    by_cases hs : s = source
    · have hzero : ∀ s' ∈ rest, (if s' = source then 1 else 0) = 0 := fun s' hs' =>
        if_neg fun heq => hnotin (by rwa [hs, ← heq])
      simp [hs, List.map_congr_left hzero]
    · rcases List.mem_cons.mp hmem with rfl | hmem
      · exact absurd rfl hs
      · simp [hs, ih hrest hmem]

/-- Payments split up by their sources. Induction on the payments: each belongs to one source. -/
theorem length_eq_sum_fromSource {sources : List PublicKey} (hdistinct : sources.Nodup)
    {payments : List Dispatch} (hmem : ∀ d ∈ payments, d.event.source ∈ sources) :
    payments.length = (sources.map fun source => (fromSource source payments).length).sum := by
  induction payments with
  | nil => simp
  | cons d ds ih =>
    have hsplit : ∀ source, (fromSource source (d :: ds)).length
        = (if source = d.event.source then 1 else 0) + (fromSource source ds).length := by
      intro source
      by_cases hs : source = d.event.source
      · subst hs
        simp [fromSource, Nat.add_comm]
      · simp [fromSource, hs, Ne.symm hs]
    have hone := sum_indicator hdistinct (hmem d (by simp))
    rw [List.length_cons, ih fun d' hd' => hmem d' (by simp [hd'])]
    simp only [hsplit]
    rw [List.sum_map_add, hone, Nat.add_comm]

/-- On a clock that advances by exactly the durations slept, executors with distinct sources, whole
seconds as delays and non-zero amounts are scheduled as if each were alone: every payment is
dispatched when it is due, the payments are ordered by time and source, and those of one source are
its own schedule so far. If all sources have counts the loop ends with all of them met; if the
others wait at least a second, it gets past any time. -/
theorem scheduler_refines_schedules (executors : List (ExecutorKit γ)) (start : SystemTime) (g : γ)
    (nodes : Table PublicKey NodeInfo) (hdistinct : (executors.map (·.source)).Nodup)
    (hseconds : ∀ ex ∈ executors, ex.WholeSeconds) (hnonzero : ∀ ex ∈ executors, ex.NonZero)
    (hnodes : ∀ ex ∈ executors, ex.source ∈ nodes) (hfails : ∀ ex ∈ executors, ex.NeverFails) :
    (∀ log₀ p log s, setupPaymentEvents executors start g = .ok (log₀, p) →
      (LoopState.iteration nodes).Run ⟨p, start⟩ log s →
      (∀ d ∈ dispatches log, d.time = d.event.executionTime) ∧
      ((dispatches log).Pairwise fun d d' => d.key ≤ d'.key) ∧
      (∀ d ∈ dispatches log, ∃ ex ∈ executors, ex.source = d.event.source) ∧
      ∀ ex ∈ executors, FollowsSchedule ex start s.now (delaysOf ex.source (log₀ ++ log))
        ((dispatchesOf ex.source log).map (·.time))) ∧
    ((∀ ex ∈ executors, ex.count.isSome) → (∀ ex ∈ executors, ex.Fits start) →
      ∃ log₀ p log s, setupPaymentEvents executors start g = .ok (log₀, p) ∧
        (LoopState.iteration nodes).Run ⟨p, start⟩ log s ∧
        LoopState.iteration nodes s = .returned (.ok ()) ∧
        (∀ ex ∈ executors, ex.count = some (dispatchesOf ex.source log).length) ∧
        (dispatches log).length = (executors.map fun ex => ex.count.getD 0).sum) ∧
    ∀ t, start ≤ t →
      (∀ ex ∈ executors, ex.count.isSome ∨ ∀ delay, ex.Waits delay → nanosPerSec ≤ delay) →
      (∀ ex ∈ executors, ∀ (i : Nat) (delay : Duration), ex.Delays i delay →
        t + delay < SystemTime.limit) →
      ∃ log₀ p log s, setupPaymentEvents executors start g = .ok (log₀, p) ∧
        (LoopState.iteration nodes).Run ⟨p, start⟩ log s ∧
        ∀ ex ∈ executors, FollowsSchedule ex start t (delaysOf ex.source (log₀ ++ log))
          ((dispatchesOf ex.source log).map (·.time)) := by
  refine ⟨fun log₀ p log s hsetup hrun => ?_, fun hcounts hfits => ?_,
    fun t hstart hwaits hroom => ?_⟩
  · have h := run_scheduled hdistinct hseconds hnonzero hsetup hrun
    have hnone := (tracked_setupPaymentEvents hsetup).2
    refine ⟨fun d hd => h.exact d (by simp [hd]), ?_, fun d hd => ?_, fun ex hex => ?_⟩
    · simpa [hnone] using h.sorted
    · obtain ⟨ex, hex, hsource, -⟩ := h.paid d (by simp [hd])
      exact ⟨ex, hex, hsource⟩
    · exact run_follows hdistinct hseconds hnonzero hsetup hrun h.now_le ex hex
  · obtain ⟨log₀, p, hsetup⟩ : ∃ log₀ p, setupPaymentEvents executors start g = .ok (log₀, p) :=
      setupPaymentEvents_ok g hfails fun ex hex delay hdelay => by
        obtain ⟨c, hc⟩ := Option.isSome_iff_exists.mp (hcounts ex hex)
        refine hfits ex hex c [delay] hc ?_ (by simp) _ (by simp [ownSchedule_cons])
        simpa using (ExecutorKit.Draws.nil ex).snoc hdelay
    obtain ⟨log, s, hrun, hreturned, hmet⟩ :=
      loop_finishes hdistinct hseconds hnonzero hnodes hfails hcounts hfits hsetup
    refine ⟨log₀, p, log, s, hsetup, hrun, hreturned, hmet, ?_⟩
    have h := run_scheduled hdistinct hseconds hnonzero hsetup hrun
    have hmem : ∀ d ∈ dispatches log, d.event.source ∈ executors.map (·.source) := fun d hd => by
      obtain ⟨ex, hex, hsource, -⟩ := h.paid d (by simp [hd])
      exact hsource ▸ List.mem_map_of_mem hex
    -- the payments split up by source, and each source has met its count
    rw [length_eq_sum_fromSource hdistinct hmem, List.map_map]
    refine congrArg List.sum (List.map_congr_left fun ex hex => ?_)
    rw [hmet ex hex]
    rfl
  · obtain ⟨log₀, p, hsetup⟩ : ∃ log₀ p, setupPaymentEvents executors start g = .ok (log₀, p) :=
      setupPaymentEvents_ok g hfails fun ex hex delay hdelay => by
        have hlt := hroom ex hex 0 delay hdelay
        simp only [SystemTime] at hstart hlt ⊢
        omega
    obtain ⟨log, s, hrun, hgoal⟩ :=
      loop_reaches hdistinct hseconds hnonzero hnodes hfails hwaits hroom hsetup
    exact ⟨log₀, p, log, s, hsetup, hrun,
      run_follows hdistinct hseconds hnonzero hsetup hrun hgoal⟩

/-- Two nodes that pay each other, one twice and one once. -/
theorem scheduler_refines_schedules_twoNodes :
    ∃ log₀ p log s,
      setupPaymentEvents
        (activityExecutors lowestRng [sampleActivity 1 2 2 2, sampleActivity 2 1 1 4]) 0 ()
          = .ok (log₀, p) ∧
      (LoopState.iteration sampleNodes).Run ⟨p, 0⟩ log s ∧
      LoopState.iteration sampleNodes s = .returned (.ok ()) ∧
      (dispatches log).length = 3 := by
  have hamounts : ∀ flow ∈ [sampleActivity 1 2 2 2, sampleActivity 2 1 1 4],
      ∃ amount, flow.amountMsat = .fixed amount ∧ amount ≠ 0 := by
    intro flow hflow
    refine ⟨1000, ?_, by decide⟩
    rcases List.mem_pair.mp hflow with rfl | rfl <;> rfl
  have hroom : ∀ flow ∈ [sampleActivity 1 2 2 2, sampleActivity 2 1 1 4], ∀ c,
      flow.count = some c →
      (0 : SystemTime) + (c.toNat + 1) * maxDelay < SystemTime.limit := by
    intro flow hflow c hc
    rcases List.mem_pair.mp hflow with rfl | rfl <;> cases hc <;> decide
  obtain ⟨-, hfinishes, -⟩ := scheduler_refines_schedules
    (activityExecutors lowestRng [sampleActivity 1 2 2 2, sampleActivity 2 1 1 4]) 0 ()
    sampleNodes (by decide) activityExecutors_wholeSeconds (activityExecutors_nonZero hamounts)
    (by decide) activityExecutors_neverFails
  obtain ⟨log₀, p, log, s, hsetup, hrun, hreturned, -, hlength⟩ :=
    hfinishes (by decide) (activityExecutors_fits hroom)
  exact ⟨log₀, p, log, s, hsetup, hrun, hreturned, hlength⟩

/-! ## Schedules that are not kept -/

/-- An executor whose generators draw the same wait and the same payment each time. -/
def constantExecutor (start : Option Duration) (wait : Duration) : ExecutorKit Unit where
  sourceInfo := sampleNode 1
  networkGenerator := { chooseDestination := fun _ g => .ok ((sampleNode 2, none), g) }
  paymentGenerator :=
    { paymentStart := start
      paymentCount := some 1
      nextPaymentWait := fun g => .ok (wait, g)
      paymentAmount := fun _ g => .ok (1000, g) }

/-- The only executor, with its first event queued. -/
def constantProducer (start : Option Duration) (wait first : Duration) : Producer Unit where
  heap := MinHeap.empty.push ⟨⟨1⟩, first, sampleNode 2, 1000⟩
  paymentsTracker := AList.insert ⟨1⟩ ⟨constantExecutor start wait, 0⟩ ∅
  generators := ()

section Constant

variable {start : Option Duration} {wait first slept : Duration}

theorem constantExecutor_generates {p : Producer Unit} {delay : Duration} {completed : Nat}
    {base : SystemTime}
    (htracker : p.paymentsTracker.lookup ⟨1⟩ = some ⟨constantExecutor start wait, completed⟩)
    (hdelay : (if completed = 0 then start.getD wait else wait) = delay)
    (hroom : base + delay < SystemTime.limit) :
    p.generatePayment ⟨1⟩ base = .ok (delay,
      p.withHeap (p.heap.push ⟨⟨1⟩, base + delay, sampleNode 2, 1000⟩)) := by
  have hadd : base.checkedAdd delay = some (base + delay) :=
    SystemTime.checkedAdd_eq_some.mpr ⟨hroom, rfl⟩
  have hget : getPaymentDelay completed (constantExecutor start wait).paymentGenerator
      p.generators = .ok (delay, p.generators) := by
    subst hdelay
    unfold getPaymentDelay
    by_cases hc : completed = 0
    · cases start <;> simp [hc, constantExecutor, Except.mapError]
    · simp [hc, constantExecutor, Except.mapError]
  unfold Producer.generatePayment
  rw [htracker]
  simp only [hget, hadd]
  rfl

theorem constantExecutor_setup (hfirst : start.getD wait = first)
    (hroom : (first : SystemTime) < SystemTime.limit) :
    setupPaymentEvents [constantExecutor start wait] 0 ()
      = .ok ([.scheduled ⟨1⟩ first], constantProducer start wait first) := by
  let p : Producer Unit :=
    { heap := .empty
      paymentsTracker := AList.insert ⟨1⟩ ⟨constantExecutor start wait, 0⟩ ∅
      generators := () }
  have htracker : p.paymentsTracker.lookup ⟨1⟩ = some ⟨constantExecutor start wait, 0⟩ :=
    AList.lookup_insert _
  have hgenerate := constantExecutor_generates htracker (by simpa using hfirst)
    (by simpa using hroom : 0 + (first : SystemTime) < SystemTime.limit)
  show setupExecutors 0 [constantExecutor start wait] _ = _
  simp only [setupExecutors]
  rw [show (constantExecutor start wait).source = ⟨1⟩ from rfl, hgenerate]
  simp [p, Producer.withHeap, constantProducer]

theorem constantExecutor_dispatches (hslept : waitTime first 0 = slept)
    (hroom : (0 : SystemTime) + slept + wait < SystemTime.limit) :
    ∃ s, LoopState.iteration sampleNodes ⟨constantProducer start wait first, 0⟩
      = .next
          [.scheduled ⟨1⟩ wait, .dispatched ⟨⟨⟨1⟩, first, sampleNode 2, 1000⟩, 0 + slept⟩] s := by
  let q := ((constantProducer start wait first).withHeap .empty).complete ⟨1⟩
    ⟨constantExecutor start wait, 0⟩
  have hpop : (constantProducer start wait first).popEvent sampleNodes 0
      = .sleeping ⟨⟨1⟩, first, sampleNode 2, 1000⟩ slept q := by
    have hfirst : (constantProducer start wait first).heap.pop
        = some (⟨⟨1⟩, first, sampleNode 2, 1000⟩, .empty) := rfl
    have hlookup : (constantProducer start wait first).paymentsTracker.lookup ⟨1⟩
        = some ⟨constantExecutor start wait, 0⟩ := AList.lookup_insert _
    have hcount : (constantExecutor start wait).count = some 1 := rfl
    simp only [Producer.popEvent, hfirst, Producer.withHeap_paymentsTracker, hlookup, hcount]
    rw [if_neg (by decide), if_neg (by decide), if_neg (by decide), hslept]
  have htracker : q.paymentsTracker.lookup ⟨1⟩ = some ⟨constantExecutor start wait, 1⟩ :=
    AList.lookup_insert _
  exact ⟨_, iteration_dispatched hpop
    (constantExecutor_generates htracker (if_neg one_ne_zero) hroom)⟩

/-- When the sleep before the first payment does not end as it is due, it is dispatched then all
the same. -/
theorem constantExecutor_misses (hfirst : start.getD wait = first)
    (hslept : waitTime first 0 = slept) (hmiss : slept ≠ first)
    (hroom : (first : SystemTime) < SystemTime.limit)
    (hroom' : (0 : SystemTime) + slept + wait < SystemTime.limit) :
    ∃ log₀ p log s, setupPaymentEvents [constantExecutor start wait] 0 () = .ok (log₀, p) ∧
      (LoopState.iteration sampleNodes).Run ⟨p, 0⟩ log s ∧
      ∃ d ∈ dispatches log, d.time ≠ d.event.executionTime := by
  obtain ⟨s, hnext⟩ : ∃ s, LoopState.iteration sampleNodes
      ⟨constantProducer start wait first, 0⟩ = .next _ s :=
    constantExecutor_dispatches hslept hroom'
  refine ⟨_, _, _, s, constantExecutor_setup hfirst hroom, .round .start hnext,
    ⟨⟨⟨1⟩, first, sampleNode 2, 1000⟩, 0 + slept⟩, by simp, fun heq => hmiss ?_⟩
  simpa using heq

end Constant

/-- The sleep before a payment is rounded to whole seconds, and to a number of seconds that `f64`
represents: a start delay of one and a half seconds and a wait of `2 ^ 53 + 1` are not kept. An
event at a time that cannot be represented ends the simulation. -/
theorem roundedSleep_misses :
    (∃ log₀ p log s,
      setupPaymentEvents [constantExecutor (some 1500000000) nanosPerSec] 0 () = .ok (log₀, p) ∧
      (LoopState.iteration sampleNodes).Run ⟨p, 0⟩ log s ∧
      ∃ d ∈ dispatches log, d.time ≠ d.event.executionTime) ∧
    (∃ log₀ p log s, setupPaymentEvents
        [constantExecutor none (Duration.fromSecs (2 ^ 53 + 1))] 0 () = .ok (log₀, p) ∧
      (LoopState.iteration sampleNodes).Run ⟨p, 0⟩ log s ∧
      ∃ d ∈ dispatches log, d.time ≠ d.event.executionTime) ∧
    setupPaymentEvents [constantExecutor none nanosPerSec] (SystemTime.limit - 1) ()
      = .error absoluteTimeOverflow :=
  ⟨constantExecutor_misses rfl waitTime_fraction (by decide) (by decide) (by decide),
    constantExecutor_misses rfl waitTime_inexact (by decide) (by decide) (by decide), rfl⟩

end SimLn
