import SimLn.RandomActivity.Capacity
import SimLn.Scheduler.Lockstep

/-!
# SimLn — random activity on a wall clock

With a fixed seed the payments of random activity come in one order as long as late sleeps change
nothing about it. The wait is rounded to whole seconds, but the next execution time is counted from
the late clock: two sources that are due in the same second change places after a sleep that ends a
millisecond late. Two runs in which that does not happen, and in which no event loses half a second
while it is queued, pay the same in the same order (`jitter_keeps_order`).
-/

namespace SimLn

open Lib

variable {F σ : Type}

/-- Random activity waits for whole seconds. -/
theorem waitsSeconds_randomActivityNodes {f : Float64 F} {rand : Rand F σ}
    {cfg : RandomActivityCfg F} {attempts : Nat} {reports : List NodeReport}
    {values : List (NodeInfo × UInt64) → List (NodeInfo × UInt64)}
    {kits : List (ExecutorKit (RandomState σ))}
    (h : randomActivityNodes f rand cfg attempts reports values = .ok kits) :
    ∀ kit ∈ kits, kit.WaitsSeconds := by
  intro kit hkit completed delay hdelays
  obtain ⟨active, view, -, -, hkits⟩ := randomActivityNodes_ok h
  obtain ⟨source, -, hexecutor⟩ := exists_of_mem_forall₂ hkits hkit
  obtain ⟨activity, -, -, -, hpayment⟩ := randomExecutor_ok hexecutor
  unfold ExecutorKit.Delays ExecutorKit.Waits at hdelays
  rw [hpayment] at hdelays
  -- there is no start delay, so every delay is drawn
  rw [if_neg (by simp [RandomPaymentActivity.paymentGenerator])] at hdelays
  obtain ⟨g, g', hwait⟩ := hdelays
  cases hwait
  exact Nat.dvd_mul_left _ _

/-- **Random activity keeps its order on a wall clock** whose sleeps end late, each by less than half a
second, in two runs in each of which the lateness is little before every round. -/
theorem jitter_keeps_order (f : Float64 F) (rand : Rand F σ) (cfg : RandomActivityCfg F)
    (attempts : Nat) (generators : RandomState σ) (nodes : Table PublicKey NodeInfo)
    (now : SystemTime) {reports : List NodeReport}
    {values : List (NodeInfo × UInt64) → List (NodeInfo × UInt64)}
    {kits : List (ExecutorKit (RandomState σ))} {log : List Activity} {p : Producer (RandomState σ)}
    {rounds rounds' : List (List Activity)} {s s' : LateState (RandomState σ)}
    (hdistinct : DistinctNodes reports) (hvalues : ∀ l, (values l).Perm l)
    (hkits : randomActivityNodes f rand cfg attempts reports values = .ok kits)
    (hsetup : setupPaymentEvents kits now generators = .ok (log, p))
    (hrun : Steps (OrderlyRound nodes) ⟨⟨p, now⟩, fun _ => 0⟩ rounds s)
    (hrun' : Steps (OrderlyRound nodes) ⟨⟨p, now⟩, fun _ => 0⟩ rounds' s') :
    paid rounds.flatten <+: paid rounds'.flatten ∨ paid rounds'.flatten <+: paid rounds.flatten := by
  obtain ⟨hsources, -⟩ := randomActivityNodes_perm hdistinct (.refl _) hvalues hvalues hkits
  have hwhole := waitsSeconds_randomActivityNodes hkits
  exact paid_prefix_of_orderly (inStep_setupPaymentEvents hsources hwhole hsetup) hrun hrun'

/-- Draws with which the two nodes are never due in one second. -/
def steadyRand : Rand ℚ (List ℚ) :=
  { seededRand with
    seedFromU64 := fun seed =>
      if seed = 2332 then [1, 0, 1, 0, 1, 0, 1, 0]
      else if seed = 14312378537760647804 then [2.46, 1775.16, 3.70, 12957.31, 3.45, 8.60, 4.31, 420]
      else [3.42, 172.61, 4.66, 47.63, 4.21, 96.40, 5.72, 88.17] }

def steadyGenerators : RandomState (List ℚ) := .new steadyRand (some 2332) 0 fun _ => 0

def steadyKits : Except RandomActivitySetupError (List (ExecutorKit (RandomState (List ℚ)))) :=
  randomActivityNodes seededFloats steadyRand ⟨3800000, 2⟩ 10 seededReports id

/-- The producer of the two nodes, set up at time 0, and its rounds with sleeps as late as given. -/
def steadyRun (lates : List Duration) :
    Option (Producer (RandomState (List ℚ)) × List (List Activity)) :=
  steadyKits.toOption.bind fun kits => (setupPaymentEvents kits 0 steadyGenerators).toOption.bind
    fun setup => (LateState.run seededNodes lates ⟨⟨setup.2, 0⟩, fun _ => 0⟩).map
      fun run => (setup.2, run.1)

theorem exists_steadyRun {lates : List Duration} (hlates : ∀ late ∈ lates, late < halfSecond)
    {kits : List (ExecutorKit (RandomState (List ℚ)))} {log : List Activity}
    {p : Producer (RandomState (List ℚ))} (hkits : steadyKits = .ok kits)
    (hsetup : setupPaymentEvents kits 0 steadyGenerators = .ok (log, p))
    {times : List SystemTime}
    (hrun : (steadyRun lates).map (fun run => (dispatches run.2.flatten).map Dispatch.time)
      = some times) :
    ∃ rounds s, Steps (OrderlyRound seededNodes) ⟨⟨p, 0⟩, fun _ => 0⟩ rounds s ∧
      (dispatches rounds.flatten).map Dispatch.time = times := by
  unfold steadyRun at hrun
  rw [hkits] at hrun
  dsimp only [Except.toOption, Option.bind_some] at hrun
  rw [hsetup] at hrun
  dsimp only [Option.bind_some] at hrun
  rw [Option.map_map, Option.map_eq_some_iff] at hrun
  obtain ⟨⟨rounds, s⟩, hrounds, htimes⟩ := hrun
  exact ⟨rounds, s, orderly_of_run hlates hrounds, htimes⟩

/-- Six payments and five of them, the one run up to 21 milliseconds late, the other up to 600. -/
theorem jitter_keeps_order_twoNodes : ∃ kits log p rounds rounds' s s',
    steadyKits = .ok kits ∧ setupPaymentEvents kits 0 steadyGenerators = .ok (log, p) ∧
    Steps (OrderlyRound seededNodes) ⟨⟨p, 0⟩, fun _ => 0⟩ rounds s ∧
    Steps (OrderlyRound seededNodes) ⟨⟨p, 0⟩, fun _ => 0⟩ rounds' s' ∧
    (dispatches rounds.flatten).map Dispatch.time =
      [2001000000, 3003000000, 5006000000, 7010000000, 8015000000, 11021000000] ∧
    (dispatches rounds'.flatten).map Dispatch.time =
      [2200000000, 3300000000, 5350000000, 7500000000, 8600000000] ∧
    paid rounds'.flatten <+: paid rounds.flatten := by
  have hslightly : (steadyRun [1000000, 2000000, 3000000, 4000000, 5000000, 6000000]).map
      (fun run => (dispatches run.2.flatten).map Dispatch.time)
      = some [2001000000, 3003000000, 5006000000, 7010000000, 8015000000, 11021000000] := by
    decide +kernel
  have hmore : (steadyRun [200000000, 100000000, 50000000, 150000000, 100000000]).map
      (fun run => (dispatches run.2.flatten).map Dispatch.time)
      = some [2200000000, 3300000000, 5350000000, 7500000000, 8600000000] := by
    decide +kernel
  obtain ⟨kits, hkits⟩ : ∃ kits, steadyKits = .ok kits := ⟨_, rfl⟩
  obtain ⟨⟨log, p⟩, hsetup⟩ :
      ∃ setup, setupPaymentEvents kits 0 steadyGenerators = .ok setup := by
    cases hsetup : setupPaymentEvents kits 0 steadyGenerators with
    | ok setup => exact ⟨setup, rfl⟩
    | error e =>
      unfold steadyRun at hmore
      rw [hkits] at hmore
      dsimp only [Except.toOption, Option.bind_some] at hmore
      rw [hsetup] at hmore
      cases hmore
  obtain ⟨rounds, s, hrun, htimes⟩ := exists_steadyRun (by decide) hkits hsetup hslightly
  obtain ⟨rounds', s', hrun', htimes'⟩ := exists_steadyRun (by decide) hkits hsetup hmore
  refine ⟨kits, log, p, rounds, rounds', s, s', hkits, hsetup, hrun, hrun', htimes, htimes', ?_⟩
  have hstarts := jitter_keeps_order seededFloats steadyRand ⟨3800000, 2⟩ 10 steadyGenerators
    seededNodes 0 seededReports_distinct (fun _ => .refl _) hkits hsetup hrun hrun'
  refine hstarts.resolve_left fun hle => ?_
  -- the first run has the more payments
  have hlength : ∀ log : List Activity,
      (paid log).length = ((dispatches log).map Dispatch.time).length := by
    simp [paid]
  have hlengths := hle.length_le
  rw [hlength, hlength, htimes, htimes'] at hlengths
  exact absurd hlengths (by decide)

/-- On time, the first node pays twice, the second time just when the second node is due. A
millisecond late after the first payment, it pays after the second node. -/
theorem seeded_orders : ∃ log p, seededSetup = some (log, p) ∧
    (∃ log s, LoopState.lateRun seededNodes [0, 0] ⟨p, 0⟩ = some (log, s) ∧
      paid log = [(firstKey, nodeInfo secondKey "", 1775), (firstKey, nodeInfo secondKey "", 12957)]) ∧
    ∃ log s, LoopState.lateRun seededNodes [1000000, 0] ⟨p, 0⟩ = some (log, s) ∧
      paid log = [(firstKey, nodeInfo secondKey "", 1775), (secondKey, nodeInfo firstKey "", 172)] := by
  -- both runs are evaluated on the sample network
  have hpaid : (seededSetup.bind fun setup =>
      LoopState.lateRun seededNodes [0, 0] ⟨setup.2, 0⟩).map (fun run => paid run.1)
      = some [(firstKey, nodeInfo secondKey "", 1775),
        (firstKey, nodeInfo secondKey "", 12957)] := by
    decide +kernel
  have hlate : (seededSetup.bind fun setup =>
      LoopState.lateRun seededNodes [1000000, 0] ⟨setup.2, 0⟩).map (fun run => paid run.1)
      = some [(firstKey, nodeInfo secondKey "", 1775),
        (secondKey, nodeInfo firstKey "", 172)] := by
    decide +kernel
  obtain ⟨-, log, p, -, -, hsetup⟩ := exists_seededSetup
  rw [hsetup, Option.bind_some, Option.map_eq_some_iff] at hpaid hlate
  obtain ⟨⟨log₁, s₁⟩, hrun₁, hpaid₁⟩ := hpaid
  obtain ⟨⟨log₂, s₂⟩, hrun₂, hpaid₂⟩ := hlate
  exact ⟨log, p, hsetup, ⟨log₁, s₁, hrun₁, hpaid₁⟩, log₂, s₂, hrun₂, hpaid₂⟩

/-- A millisecond changes the order of the payments. -/
theorem jitter_reorders : ∃ kits log p, seededKits = .ok kits ∧
    setupPaymentEvents kits 0 seededGenerators = .ok (log, p) ∧
    ¬OrderSurvives seededNodes ⟨p, 0⟩ := by
  obtain ⟨kits, log, p, hkits, hsetup, hsome⟩ := exists_seededSetup
  obtain ⟨log', p', hsome', ⟨log₁, s₁, hrun₁, hpaid₁⟩, log₂, s₂, hrun₂, hpaid₂⟩ := seeded_orders
  rw [hsome] at hsome'
  cases hsome'
  refine ⟨kits, log, p, hkits, hsetup, fun hsurvives => ?_⟩
  have hcomparable := hsurvives log₁ s₁ log₂ s₂ (clockedRun_of_lateRun (by decide) hrun₁)
    (clockedRun_of_lateRun (by decide) hrun₂)
  rw [hpaid₁, hpaid₂] at hcomparable
  exact absurd hcomparable (by decide)

end SimLn
