import SimLn.RandomActivity.Order
import Mathlib.Tactic.Linarith

/-!
# SimLn — random activity and the capacity of nodes

`validate_capacity` is asked twice about a node: in the first pass of `random_activity_nodes` with the
sum of its channels, and again in `RandomPaymentActivity::new` with half of that. A node whose sum
lies in between passes the first time and fails the second, which ends the set-up, as does a network
whose weights wrap around to a total of zero (`capacityRespected_iff`).

The capacity that it asks for is twice the expected amount, computed in `u64`. As long as this does
not wrap around, half of the smaller of two accepted capacities covers the expected amount, and no
payment amount fails for want of capacity (`amountsPossible_iff`).
-/

namespace SimLn

open Lib

variable {F σ : Type} {f : Float64 F} {rand : Rand F σ} {cfg : RandomActivityCfg F}
  {attempts : Nat}

namespace RandomPaymentActivity

/-- A capacity is enough if it is twice the expected amount, as `u64` computes it. -/
theorem validateCapacity_eq_ok {capacity expected : UInt64} :
    validateCapacity capacity expected = .ok () ↔ 2 * expected ≤ capacity := by
  unfold validateCapacity
  by_cases hlt : capacity < 2 * expected
  · simp only [if_pos hlt, reduceCtorEq, false_iff]
    exact UInt64.not_le.mpr hlt
  · simp only [if_neg hlt, true_iff]
    exact UInt64.not_lt.mp hlt

/-- The rate of the payments of a node with this capacity. -/
def rate (f : Float64 F) (cfg : RandomActivityCfg F) (capacity : UInt64) : F :=
  f.div (eventsPerMonth f capacity cfg.activityMultiplier cfg.expectedPaymentMsat)
    (f.ofU64 secondsPerMonth)

/-- What `new` has checked of a capacity that it accepts. -/
theorem new_ok {expected capacity : UInt64} {multiplier : F} {activity : RandomPaymentActivity F σ}
    (h : new f rand capacity expected multiplier = .ok activity) :
    capacity ≠ 0 ∧ 2 * expected ≤ capacity ∧ activity.expectedPaymentAmt = expected ∧
      activity.sourceCapacity = capacity := by
  unfold new at h
  split at h
  · cases h
  next hcapacity =>
    split at h
    · cases h
    · split at h
      · cases h
      · split at h
        · cases h
        next hvalid =>
          dsimp only at h
          split at h
          · cases h
          · cases h
            exact ⟨hcapacity, validateCapacity_eq_ok.mp hvalid, rfl, rfl⟩

/-- With a positive multiplier and amount, `new` accepts every capacity that is large enough. -/
theorem exists_new {capacity : UInt64} (hexpected : cfg.expectedPaymentMsat ≠ 0)
    (hmultiplier : f.eq cfg.activityMultiplier (f.ofU64 0) = false)
    (hexp : ∀ capacity, capacity ≠ 0 → ∃ dist, rand.exp (rate f cfg capacity) = .ok dist)
    (hcapacity : capacity ≠ 0) (hlarge : 2 * cfg.expectedPaymentMsat ≤ capacity) :
    ∃ activity, new f rand capacity cfg.expectedPaymentMsat cfg.activityMultiplier
      = .ok activity := by
  obtain ⟨dist, hdist⟩ := hexp capacity hcapacity
  have hdist' : rand.exp (f.div (eventsPerMonth f capacity cfg.activityMultiplier
      cfg.expectedPaymentMsat) (f.ofU64 secondsPerMonth)) = .ok dist := hdist
  refine ⟨⟨cfg.expectedPaymentMsat, capacity, dist⟩, ?_⟩
  unfold new
  rw [if_neg hcapacity, if_neg hexpected, hmultiplier, validateCapacity_eq_ok.mpr hlarge]
  simp only [Bool.false_eq_true, if_false, hdist']

end RandomPaymentActivity

open RandomPaymentActivity

/-! ## Set-up -/

/-- The nodes collected in the first pass are active. -/
theorem active_of_mem_entries {expected : UInt64} {nodes : List NodeReport}
    {table : Table PublicKey (NodeInfo × UInt64)}
    (h : nodes.foldlM (activeNodes expected) ∅ = .ok table) {e : Sigma fun _ => NodeInfo × UInt64}
    (he : e ∈ table.entries) : ∃ node ∈ nodes, node.Active expected e.2 := by
  refine foldlM_invariant (I := fun table => ∀ e ∈ table.entries, ∃ node ∈ nodes,
    node.Active expected e.2) h (by simp) ?_ e he
  intro node hnode table table' htable hstep e he
  rcases activeNodes_ok hstep with ⟨rfl, -⟩ | ⟨active, rfl, hown⟩
  · exact htable e he
  · rcases Table.lookup_insert_cases (AList.mem_lookup_iff.mpr he) with ⟨-, heq⟩ | ⟨-, hold⟩
    · exact ⟨node, hnode, heq ▸ (hown active).mpr rfl⟩
    · exact htable e (AList.mem_lookup_iff.mp hold)

/-- The nodes that the second pass goes through. -/
def SecondPass (cfg : RandomActivityCfg F) (nodes : List NodeReport)
    (values : List (NodeInfo × UInt64) → List (NodeInfo × UInt64))
    (active : List (NodeInfo × UInt64)) : Prop :=
  ∃ table, nodes.foldlM (activeNodes cfg.expectedPaymentMsat) ∅ = .ok table ∧
    active = values (table.entries.map Sigma.snd)

/-- One of the node's calls returns this error. -/
def NodeReport.Unanswered (node : NodeReport) (e : LightningError) : Prop :=
  node.channelCapacities = .error e ∨ node.nodeInfo = .error e

/-- How set-up may fail without a node being refused that was kept: a node does not answer, or fewer
than two are kept. -/
inductive SetupFails (cfg : RandomActivityCfg F) (nodes : List NodeReport)
    (values : List (NodeInfo × UInt64) → List (NodeInfo × UInt64)) :
    RandomActivitySetupError → Prop where
  | unanswered {node : NodeReport} {e : LightningError} (hnode : node ∈ nodes)
      (hunanswered : node.Unanswered e) : SetupFails cfg nodes values (.lightningError e)
  | tooFew {active : List (NodeInfo × UInt64)} (hpass : SecondPass cfg nodes values active)
      (hfew : active.length < 2) : SetupFails cfg nodes values
        (.randomActivityError (.valueError "at least two nodes required for activity generation"))

/-- Nodes with too little capacity are skipped: those that are kept are accepted, and set-up fails
for other reasons only. -/
structure CapacityRespected (f : Float64 F) (rand : Rand F σ) (cfg : RandomActivityCfg F)
    (attempts : Nat) (nodes : List NodeReport)
    (values : List (NodeInfo × UInt64) → List (NodeInfo × UInt64)) : Prop where
  accepted : ∀ node ∈ nodes, ∀ capacity, node.channelCapacities = .ok capacity →
    validateCapacity capacity cfg.expectedPaymentMsat = .ok () →
    ∃ activity, RandomPaymentActivity.new f rand (capacity / 2) cfg.expectedPaymentMsat
      cfg.activityMultiplier = .ok activity
  outcome : ∀ err, randomActivityNodes f rand cfg attempts nodes values = .error err →
    SetupFails cfg nodes values err

/-- `WeightedIndex::new` refuses weights exactly if their total is zero, which it is without any. The
total is computed in `u64`. -/
def Rand.WeighsTotal (rand : Rand F σ) : Prop :=
  ∀ weights, (∃ picker, rand.weightedIndex weights = .ok picker) ↔ weights.sum ≠ 0

/-- The view of two nodes or more of positive capacity is refused exactly if their total is zero. -/
theorem NetworkGraphView.exists_new_iff (hpick : rand.WeighsTotal) {active : List (NodeInfo × UInt64)}
    (hmany : 2 ≤ active.length) (hpos : ∀ node ∈ active, node.2 ≠ 0) :
    (∃ view, NetworkGraphView.new rand active = .ok view) ↔ (active.map (·.2)).sum ≠ 0 := by
  have hany : active.any (·.2 = 0) = false := by simpa using hpos
  have htotal : ((active.insertionSort fun n1 n2 => n1.1.pubkey ≤ n2.1.pubkey).map (·.2)).sum
      = (active.map (·.2)).sum :=
    ((List.perm_insertionSort _ active).map _).sum_eq
  rw [← htotal, ← hpick]
  unfold NetworkGraphView.new
  simp only [if_neg (Nat.not_lt.mpr hmany), hany, Bool.false_eq_true, if_false,
    NetworkGraphView.ofSorted]
  cases rand.weightedIndex ((active.insertionSort fun n1 n2 => n1.1.pubkey ≤ n2.1.pubkey).map (·.2)) with
  | error e => simp
  | ok picker => simp

variable {nodes : List NodeReport} {values : List (NodeInfo × UInt64) → List (NodeInfo × UInt64)}

/-- The first pass keeps one list of nodes. -/
theorem SecondPass.unique {active active' : List (NodeInfo × UInt64)}
    (h : SecondPass cfg nodes values active) (h' : SecondPass cfg nodes values active') :
    active = active' := by
  obtain ⟨table, htable, rfl⟩ := h
  obtain ⟨table', htable', rfl⟩ := h'
  obtain rfl : table = table' := Except.ok.inj (htable.symm.trans htable')
  rfl

/-- A node that is kept has been active in the first pass. -/
theorem SecondPass.active {active : List (NodeInfo × UInt64)} (h : SecondPass cfg nodes values active)
    (hvalues : ∀ l, (values l).Perm l) {entry : NodeInfo × UInt64} (hentry : entry ∈ active) :
    ∃ node ∈ nodes, node.Active cfg.expectedPaymentMsat entry := by
  obtain ⟨table, htable, rfl⟩ := h
  obtain ⟨e, he, rfl⟩ := List.mem_map.mp ((hvalues _).mem_iff.mp hentry)
  exact active_of_mem_entries htable he

/-- The first pass only fails if a node does not answer. -/
theorem unanswered_of_activeNodes {expected : UInt64} {table : Table PublicKey (NodeInfo × UInt64)}
    {node : NodeReport} {e : LightningError} (h : activeNodes expected table node = .error e) :
    node.Unanswered e := by
  unfold activeNodes at h
  split at h
  next hcapacities =>
    cases h
    exact .inl hcapacities
  · split at h
    · cases h
    · split at h
      next hinfo =>
        cases h
        exact .inr hinfo
      · cases h

/-- Set-up goes wrong at a node that does not answer, in the view of the network, or at an executor. -/
theorem randomActivityNodes_error {err : RandomActivitySetupError}
    (h : randomActivityNodes f rand cfg attempts nodes values = .error err) :
    (∃ node ∈ nodes, ∃ e, node.Unanswered e ∧ err = .lightningError e) ∨
      ∃ active, SecondPass cfg nodes values active ∧
      ((∃ e, NetworkGraphView.new rand active = .error e ∧ err = .randomActivityError e) ∨
        ∃ view e, active.mapM (randomExecutor f rand cfg attempts view) = .error e) := by
  unfold randomActivityNodes at h
  cases hfold : nodes.foldlM (activeNodes cfg.expectedPaymentMsat) ∅ with
  | error e =>
    rw [hfold] at h
    cases h
    obtain ⟨node, hnode, table, hfails⟩ := exists_error_of_foldlM hfold
    exact .inl ⟨node, hnode, e, unanswered_of_activeNodes hfails, rfl⟩
  | ok table =>
    rw [hfold] at h
    dsimp only at h
    refine .inr ⟨_, ⟨table, hfold, rfl⟩, ?_⟩
    split at h
    next e hview =>
      cases h
      exact .inl ⟨e, hview, rfl⟩
    next view hview =>
      cases hmap : (values (table.entries.map Sigma.snd)).mapM
          (randomExecutor f rand cfg attempts view) with
      | error e => exact .inr ⟨view, e, hmap⟩
      | ok kits =>
        rw [hmap] at h
        cases h

/-- If the view of the network is refused, so is the set-up. -/
theorem randomActivityNodes_of_view {active : List (NodeInfo × UInt64)} {e : RandomActivityError}
    (hpass : SecondPass cfg nodes values active) (hview : NetworkGraphView.new rand active = .error e) :
    randomActivityNodes f rand cfg attempts nodes values = .error (.randomActivityError e) := by
  obtain ⟨table, htable, rfl⟩ := hpass
  unfold randomActivityNodes
  simp only [htable, hview]

/-- No node lies between the two checks: whose channels suffice for the expected amount, but half of
them do not. -/
def NoneBetween (cfg : RandomActivityCfg F) (nodes : List NodeReport) : Prop :=
  ∀ node ∈ nodes, ∀ capacity, node.channelCapacities = .ok capacity →
    2 * cfg.expectedPaymentMsat ≤ capacity →
    2 * cfg.expectedPaymentMsat ≤ capacity / 2 ∧ capacity / 2 ≠ 0

/-- The capacities that destinations are weighted by, of two nodes or more, do not add up to zero in
`u64`. -/
def Weighable (cfg : RandomActivityCfg F) (nodes : List NodeReport)
    (values : List (NodeInfo × UInt64) → List (NodeInfo × UInt64)) : Prop :=
  ∀ active, SecondPass cfg nodes values active → 2 ≤ active.length → (active.map (·.2)).sum ≠ 0

/-- With no node between the two checks, those that are kept have half their capacity left. -/
theorem NoneBetween.pos (h : NoneBetween cfg nodes) (hvalues : ∀ l, (values l).Perm l)
    {active : List (NodeInfo × UInt64)} (hpass : SecondPass cfg nodes values active) :
    ∀ entry ∈ active, entry.2 ≠ 0 := by
  intro entry hentry
  obtain ⟨node, hnode, capacity, hcapacity, hvalid, -, hhalf⟩ := hpass.active hvalues hentry
  rw [hhalf]
  exact (h node hnode capacity hcapacity (validateCapacity_eq_ok.mp hvalid)).2

/-- Nodes that are all accepted leave none between the two checks. -/
theorem CapacityRespected.noneBetween (h : CapacityRespected f rand cfg attempts nodes values) :
    NoneBetween cfg nodes := by
  intro node hnode capacity hcapacity hlarge
  obtain ⟨activity, hactivity⟩ := h.accepted node hnode capacity hcapacity
    (validateCapacity_eq_ok.mpr hlarge)
  obtain ⟨hpos, hhalf, -⟩ := new_ok hactivity
  exact ⟨hhalf, hpos⟩

/-- Set-up that does not fail over the weights of enough nodes has weights that can be used. -/
theorem CapacityRespected.weighable (hvalues : ∀ l, (values l).Perm l) (hpick : rand.WeighsTotal)
    (h : CapacityRespected f rand cfg attempts nodes values) : Weighable cfg nodes values := by
  intro active hpass hmany
  rw [← NetworkGraphView.exists_new_iff hpick hmany (h.noneBetween.pos hvalues hpass)]
  cases hview : NetworkGraphView.new rand active with
  | ok view => exact ⟨view, rfl⟩
  | error e =>
    -- there are nodes enough, so this is no error that set-up may report
    cases h.outcome _ (randomActivityNodes_of_view hpass hview) with
    | tooFew hpass' hfew =>
      rw [hpass'.unique hpass] at hfew
      omega

/-- The second pass accepts the nodes that the first one keeps, if none lies between the two. -/
theorem NoneBetween.accepted (h : NoneBetween cfg nodes) (hexpected : cfg.expectedPaymentMsat ≠ 0)
    (hmultiplier : f.eq cfg.activityMultiplier (f.ofU64 0) = false)
    (hexp : ∀ capacity, capacity ≠ 0 → ∃ dist, rand.exp (rate f cfg capacity) = .ok dist)
    {node : NodeReport} (hnode : node ∈ nodes) {capacity : UInt64}
    (hcapacity : node.channelCapacities = .ok capacity)
    (hvalid : validateCapacity capacity cfg.expectedPaymentMsat = .ok ()) :
    ∃ activity, RandomPaymentActivity.new f rand (capacity / 2) cfg.expectedPaymentMsat
      cfg.activityMultiplier = .ok activity := by
  obtain ⟨hhalf, hpos⟩ := h node hnode capacity hcapacity (validateCapacity_eq_ok.mp hvalid)
  exact exists_new hexpected hmultiplier hexp hpos hhalf

/-- **Nodes with too little capacity are skipped** exactly if no node lies between the two checks, and
the weights of the nodes that are kept do not add up to zero. -/
theorem capacityRespected_iff (hvalues : ∀ l, (values l).Perm l)
    (hexpected : cfg.expectedPaymentMsat ≠ 0)
    (hmultiplier : f.eq cfg.activityMultiplier (f.ofU64 0) = false)
    (hexp : ∀ capacity, capacity ≠ 0 → ∃ dist, rand.exp (rate f cfg capacity) = .ok dist)
    (hpick : rand.WeighsTotal) :
    CapacityRespected f rand cfg attempts nodes values ↔
      NoneBetween cfg nodes ∧ Weighable cfg nodes values := by
  refine ⟨fun h => ⟨h.noneBetween, h.weighable hvalues hpick⟩, fun ⟨hnone, hweigh⟩ => ?_⟩
  refine ⟨fun node hnode capacity => hnone.accepted hexpected hmultiplier hexp hnode,
    fun err herr => ?_⟩
  rcases randomActivityNodes_error herr with
    ⟨node, hnode, e, hunanswered, rfl⟩ | ⟨active, hpass, ⟨e, hview, rfl⟩ | ⟨view, e, hmap⟩⟩
  · exact .unanswered hnode hunanswered
  · rcases Nat.lt_or_ge active.length 2 with hfew | hmany
    · rw [NetworkGraphView.new, if_pos hfew] at hview
      cases hview
      exact .tooFew hpass hfew
    · obtain ⟨view, hview'⟩ := (NetworkGraphView.exists_new_iff hpick hmany
        (hnone.pos hvalues hpass)).mpr (hweigh active hpass hmany)
      rw [hview] at hview'
      cases hview'
  -- every executor can be created
  · obtain ⟨kits, hkits⟩ := exists_mapM_of_forall
      (f := randomExecutor f rand cfg attempts view) (l := active) fun entry hentry => by
        obtain ⟨node, hnode, capacity, hcapacity, hvalid, -, hhalf⟩ := hpass.active hvalues hentry
        obtain ⟨activity, hactivity⟩ :=
          hnone.accepted hexpected hmultiplier hexp hnode hcapacity hvalid
        rw [← hhalf] at hactivity
        exact ⟨_, by rw [randomExecutor, hactivity]⟩
    rw [hmap] at hkits
    cases hkits

/-- Two nodes whose channels hold three times the expected amount. -/
def bandReports : List NodeReport :=
  [firstKey, secondKey].map fun key => ⟨.ok 11400000, .ok (nodeInfo key "")⟩

/-- Each is kept in the first pass and refused in the second, which ends the set-up. -/
theorem bandReports_fatal :
    randomActivityNodes seededFloats seededRand ⟨3800000, 2⟩ 10 bandReports id
      = .error (.randomActivityError (.insufficientCapacity
        "node needs at least 7600000 capacity (has: 5700000) to process expected payment amount: 3800000")) ∧
    ¬ CapacityRespected seededFloats seededRand ⟨3800000, 2⟩ 10 bandReports id := by
  have hfatal : randomActivityNodes seededFloats seededRand ⟨3800000, 2⟩ 10 bandReports id
      = .error (.randomActivityError (.insufficientCapacity
        "node needs at least 7600000 capacity (has: 5700000) to process expected payment amount: 3800000")) := by
    rfl
  refine ⟨hfatal, fun h => ?_⟩
  have hfails := h.outcome _ hfatal
  cases hfails

/-- `seededRand` with the checks of the weights. -/
def weighingRand : Rand ℚ (List ℚ) :=
  { seededRand with
    weightedIndex := fun weights =>
      if h : weights.sum ≠ 0 then
        .ok fun rng => (⟨(rng.headD 0).floor.toNat % weights.length, Nat.mod_lt _ <|
          List.length_pos_iff.mpr fun hnil => h (hnil ▸ List.sum_nil)⟩, rng.tail)
      else if weights = [] then .error "No weights provided in distribution."
      else .error "All weights are zero in distribution." }

/-- It accepts exactly the weights whose sum is not zero. -/
theorem weighingRand_weighsTotal : weighingRand.WeighsTotal := by
  intro weights
  by_cases h : weights.sum = 0
  · have hnot : ¬ weights.sum ≠ 0 := not_not.mpr h
    refine ⟨fun ⟨picker, hpicker⟩ => ?_, fun hne => absurd h hne⟩
    simp only [weighingRand, dif_neg hnot] at hpicker
    split at hpicker <;> cases hpicker
  · exact ⟨fun _ => h, fun _ => ⟨_, dif_pos h⟩⟩

theorem seededReports_weighable :
    Weighable (⟨3800000, 2⟩ : RandomActivityCfg ℚ) seededReports id := by
  rintro active ⟨table, htable, rfl⟩ -
  cases htable
  decide

/-- Two nodes with enough capacity are set up. -/
theorem capacityRespected_iff_twoNodes :
    CapacityRespected seededFloats weighingRand ⟨3800000, 2⟩ 10 seededReports id := by
  refine (capacityRespected_iff (fun _ => .refl _) (by decide) (by decide +kernel)
    (fun _ _ => ⟨_, rfl⟩) weighingRand_weighsTotal).mpr
    ⟨fun node hnode capacity hcapacity _ => ?_, seededReports_weighable⟩
  simp only [seededReports, List.map_cons, List.map_nil, List.mem_cons, List.not_mem_nil,
    or_false] at hnode
  rcases hnode with rfl | rfl
  · cases hcapacity
    decide
  · cases hcapacity
    decide

/-! ## Amounts -/

/-- Accepted capacities leave room for the expected amount: half of the smaller of two covers it, and
no amount drawn for a destination fails but for what the distribution itself refuses. -/
structure AmountsPossible (f : Float64 F) (rand : Rand F σ) (cfg : RandomActivityCfg F) : Prop where
  limit : ∀ source destination activity activity',
    RandomPaymentActivity.new f rand source cfg.expectedPaymentMsat cfg.activityMultiplier
      = .ok activity →
    RandomPaymentActivity.new f rand destination cfg.expectedPaymentMsat cfg.activityMultiplier
      = .ok activity' →
    cfg.expectedPaymentMsat ≤ min source destination / 2
  amount : ∀ attempts nodes values kits, (∀ l, (values l).Perm l) →
    randomActivityNodes f rand cfg attempts nodes values = .ok kits →
    ∀ kit ∈ kits, ∀ g destination capacity g',
      kit.networkGenerator.chooseDestination kit.source g = .ok ((destination, capacity), g') →
      ∀ err, kit.paymentGenerator.paymentAmount capacity g' = .error err →
        ∃ mu sigma, rand.logNormal mu sigma = .error err.message

/-- Doubling wraps around from `2 ^ 63` on. -/
theorem toNat_double {e : UInt64} (h : e.toNat < 2 ^ 63) : (2 * e).toNat = 2 * e.toNat := by
  rw [UInt64.toNat_mul, show (2 : UInt64).toNat = 2 from rfl, Nat.mod_eq_of_lt (by omega)]

/-- What is half of two capacities is half of the smaller one. -/
theorem le_half_min {e source destination : UInt64} (h : e.toNat < 2 ^ 63) (hsource : 2 * e ≤ source)
    (hdestination : 2 * e ≤ destination) : e ≤ min source destination / 2 := by
  have hmin : 2 * e ≤ min source destination := by
    show 2 * e ≤ if source ≤ destination then source else destination
    split
    · exact hsource
    · exact hdestination
  rw [UInt64.le_iff_toNat_le, toNat_double h] at hmin
  rw [UInt64.le_iff_toNat_le, UInt64.toNat_div, show (2 : UInt64).toNat = 2 from rfl]
  omega

/-- Twice the difference of the logarithms is not negative, when the limit covers the amount. -/
def Float64.LnMono (f : Float64 F) : Prop :=
  ∀ a b : UInt64, a ≤ b →
    f.lt (f.mul (f.ofU64 2) (f.sub (f.ln (f.ofU64 b)) (f.ln (f.ofU64 a)))) (f.ofU64 0) = false

/-- With enough capacity an amount is refused by the distribution or not at all. -/
theorem paymentAmount_error {activity : RandomPaymentActivity F σ} (hln : f.LnMono)
    {capacity : UInt64}
    (hlimit : activity.expectedPaymentAmt ≤ min activity.sourceCapacity capacity / 2) {rng : σ}
    {err : PaymentGenerationError}
    (h : activity.paymentAmount f rand (some capacity) rng = .error err) :
    ∃ mu sigma, rand.logNormal mu sigma = .error err.message := by
  unfold RandomPaymentActivity.paymentAmount at h
  dsimp only at h
  rw [hln _ _ hlimit] at h
  simp only [Bool.false_eq_true, if_false] at h
  split at h
  next hlogNormal =>
    cases h
    exact ⟨_, _, hlogNormal⟩
  · cases h

/-- A destination is one of the view's nodes, and not the source. -/
theorem NetworkGraphView.chooseDestination_mem {view : NetworkGraphView σ} {source : PublicKey}
    {attempts : Nat} {rng rng' : σ} {node : NodeInfo × UInt64}
    (h : view.chooseDestination source attempts rng = .ok (node, rng')) :
    node ∈ view.nodes ∧ node.1.pubkey ≠ source := by
  induction attempts generalizing rng with
  | zero => cases h
  | succ attempts ih =>
    unfold chooseDestination at h
    dsimp only at h
    split_ifs at h with hsource
    · cases h
      exact ⟨List.getElem_mem _, hsource⟩
    · exact ih h

/-- The view holds the nodes that it was created from. -/
theorem NetworkGraphView.nodes_perm {nodes : List (NodeInfo × UInt64)} {view : NetworkGraphView σ}
    (h : NetworkGraphView.new rand nodes = .ok view) : view.nodes.Perm nodes := by
  unfold NetworkGraphView.new NetworkGraphView.ofSorted at h
  split_ifs at h
  split at h
  · cases h
  · cases h
    exact List.perm_insertionSort _ nodes

/-- What set-up that succeeds has made of the active nodes. -/
theorem randomActivityNodes_ok {kits : List (ExecutorKit (RandomState σ))}
    (h : randomActivityNodes f rand cfg attempts nodes values = .ok kits) :
    ∃ active view, SecondPass cfg nodes values active ∧
      NetworkGraphView.new rand active = .ok view ∧
      List.Forall₂ (fun entry kit => randomExecutor f rand cfg attempts view entry = .ok kit)
        active kits := by
  unfold randomActivityNodes at h
  cases hfold : nodes.foldlM (activeNodes cfg.expectedPaymentMsat) ∅ with
  | error e =>
    rw [hfold] at h
    cases h
  | ok table =>
    rw [hfold] at h
    dsimp only at h
    split at h
    · cases h
    next view hview =>
      cases hmap : (values (table.entries.map Sigma.snd)).mapM
          (randomExecutor f rand cfg attempts view) with
      | error e =>
        rw [hmap] at h
        cases h
      | ok kits =>
        rw [hmap] at h
        cases h
        exact ⟨_, view, ⟨table, hfold, rfl⟩, hview, forall₂_of_mapM hmap⟩

/-- What the executor of a node consists of. -/
theorem randomExecutor_ok {view : NetworkGraphView σ} {entry : NodeInfo × UInt64}
    {kit : ExecutorKit (RandomState σ)}
    (h : randomExecutor f rand cfg attempts view entry = .ok kit) :
    ∃ activity, RandomPaymentActivity.new f rand entry.2 cfg.expectedPaymentMsat
        cfg.activityMultiplier = .ok activity ∧
      kit.sourceInfo = entry.1 ∧ kit.networkGenerator = view.destinationGenerator attempts ∧
      kit.paymentGenerator = activity.paymentGenerator f rand entry.1.pubkey := by
  unfold randomExecutor at h
  split at h
  · cases h
  next activity hactivity =>
    cases h
    exact ⟨activity, hactivity, rfl, rfl, rfl⟩

/-- The choices of all nodes come back if the view's do, within the attempts allowed. -/
theorem returns_randomActivityNodes {kits : List (ExecutorKit (RandomState σ))}
    (h : randomActivityNodes f rand cfg attempts nodes values = .ok kits)
    (hdraws : ∀ active view, SecondPass cfg nodes values active →
      NetworkGraphView.new rand active = .ok view →
      ∀ source rng, view.chooseDestination source attempts rng ≠ .error .outOfAttempts) :
    ∀ kit ∈ kits, kit.networkGenerator.Returns := by
  intro kit hkit source g hchoose
  obtain ⟨active, view, hpass, hview, hkits⟩ := randomActivityNodes_ok h
  obtain ⟨entry, -, hexecutor⟩ := exists_of_mem_forall₂ hkits hkit
  obtain ⟨-, -, -, hgenerator, -⟩ := randomExecutor_ok hexecutor
  rw [hgenerator] at hchoose
  simp only [NetworkGraphView.destinationGenerator] at hchoose
  split at hchoose
  · cases hchoose
    exact hdraws active view hpass hview source g.network ‹_›
  · cases hchoose

/-- The destinations that the executor of one active node draws are active nodes, each with the
capacity that it was accepted with. -/
theorem exists_activities {kits : List (ExecutorKit (RandomState σ))}
    (hvalues : ∀ l, (values l).Perm l)
    (h : randomActivityNodes f rand cfg attempts nodes values = .ok kits)
    {kit : ExecutorKit (RandomState σ)} (hkit : kit ∈ kits) {g g' : RandomState σ}
    {destination : NodeInfo} {capacity : Option UInt64}
    (hdestination : kit.networkGenerator.chooseDestination kit.source g
      = .ok ((destination, capacity), g')) :
    ∃ source activity chosen activity',
      RandomPaymentActivity.new f rand source.2 cfg.expectedPaymentMsat cfg.activityMultiplier
        = .ok activity ∧
      RandomPaymentActivity.new f rand chosen.2 cfg.expectedPaymentMsat cfg.activityMultiplier
        = .ok activity' ∧
      kit.sourceInfo = source.1 ∧ destination = chosen.1 ∧ capacity = some chosen.2 ∧
      chosen.1.pubkey ≠ source.1.pubkey ∧
      (∃ node ∈ nodes, node.Active cfg.expectedPaymentMsat source) ∧
      (∃ node ∈ nodes, node.Active cfg.expectedPaymentMsat chosen) ∧
      kit.paymentGenerator = activity.paymentGenerator f rand source.1.pubkey := by
  obtain ⟨active, view, hpass, hview, hkits⟩ := randomActivityNodes_ok h
  obtain ⟨source, hsource, hexecutor⟩ := exists_of_mem_forall₂ hkits hkit
  obtain ⟨activity, hactivity, hinfo, hnetwork, hpayment⟩ := randomExecutor_ok hexecutor
  rw [hnetwork] at hdestination
  simp only [NetworkGraphView.destinationGenerator] at hdestination
  split at hdestination
  · cases hdestination
  next chosen capacity' network hchosen =>
    cases hdestination
    obtain ⟨hmem, hne⟩ := NetworkGraphView.chooseDestination_mem hchosen
    have hactive := (NetworkGraphView.nodes_perm hview).mem_iff.mp hmem
    -- every active node has an executor, so its capacity has been accepted too
    obtain ⟨kit', -, hexecutor'⟩ := exists_of_mem_forall₂ hkits.flip hactive
    obtain ⟨activity', hactivity', -⟩ := randomExecutor_ok hexecutor'
    refine ⟨source, activity, _, activity', hactivity, hactivity', hinfo, rfl, rfl, ?_,
      hpass.active hvalues hsource, hpass.active hvalues hactive, hpayment⟩
    rw [← hinfo]
    exact hne

/-- **Accepted generators can always produce an amount** exactly if twice the expected amount does
not wrap around in `u64`. -/
theorem amountsPossible_iff (hexpected : cfg.expectedPaymentMsat ≠ 0)
    (hmultiplier : f.eq cfg.activityMultiplier (f.ofU64 0) = false)
    (hexp : ∀ capacity, capacity ≠ 0 → ∃ dist, rand.exp (rate f cfg capacity) = .ok dist)
    (hln : f.LnMono) :
    AmountsPossible f rand cfg ↔ cfg.expectedPaymentMsat.toNat < 2 ^ 63 := by
  constructor
  · intro h
    -- the largest capacity is accepted for every amount, and half of it is `2 ^ 63 - 1`
    have hmax : 2 * cfg.expectedPaymentMsat ≤ 18446744073709551615 :=
      UInt64.le_iff_toNat_le.mpr (Nat.le_of_lt_succ (UInt64.toNat_lt _))
    obtain ⟨activity, hactivity⟩ := exists_new hexpected hmultiplier hexp (by decide) hmax
    have hle := UInt64.le_iff_toNat_le.mp (h.limit _ _ _ _ hactivity hactivity)
    exact Nat.lt_of_le_of_lt hle (by decide)
  · intro hsmall
    have hlimit : ∀ source destination activity activity',
        RandomPaymentActivity.new f rand source cfg.expectedPaymentMsat cfg.activityMultiplier
          = .ok activity →
        RandomPaymentActivity.new f rand destination cfg.expectedPaymentMsat cfg.activityMultiplier
          = .ok activity' →
        cfg.expectedPaymentMsat ≤ min source destination / 2 := by
      intro source destination activity activity' hsource hdestination
      exact le_half_min hsmall (new_ok hsource).2.1 (new_ok hdestination).2.1
    refine ⟨hlimit, ?_⟩
    intro attempts nodes values kits hvalues hkits kit hkit g destination capacity g' hchosen err herr
    obtain ⟨source, activity, chosen, activity', hactivity, hactivity', -, -, rfl, -, -, -, hpayment⟩ :=
      exists_activities hvalues hkits hkit hchosen
    obtain ⟨-, -, hamount, hcapacity⟩ := new_ok hactivity
    rw [hpayment] at herr
    simp only [paymentGenerator] at herr
    split at herr
    next hpaymentAmount =>
      cases herr
      refine paymentAmount_error hln ?_ hpaymentAmount
      rw [hamount, hcapacity]
      exact hlimit _ _ _ _ hactivity hactivity'
    · cases herr

/-- Rational numbers in place of floats, with a logarithm of two steps. -/
def steppedFloats : Float64 ℚ :=
  { seededFloats with ln := fun x => if x ≤ 3800000 then 15.15 else 26.24 }

theorem steppedFloats_lnMono : steppedFloats.LnMono := by
  intro a b hab
  have hle : (a.toNat : ℚ) ≤ b.toNat := by exact_mod_cast UInt64.le_iff_toNat_le.mp hab
  simp only [steppedFloats, seededFloats, decide_eq_false_iff_not, not_lt]
  split_ifs with hb ha <;> norm_num
  linarith

theorem amountsPossible_iff_twoNodes :
    AmountsPossible steppedFloats seededRand ⟨3800000, 2⟩ := by
  refine (amountsPossible_iff (by decide) (by decide +kernel) (fun _ _ => ⟨_, rfl⟩)
    steppedFloats_lnMono).mpr (by decide)

/-- With an expected amount of `2 ^ 63` a node of two millisatoshis is accepted, and then its first
payment fails. -/
theorem hugeAmount_impossible :
    (∃ activity, RandomPaymentActivity.new steppedFloats seededRand 2 9223372036854775808 2
        = .ok activity ∧
      activity.paymentAmount steppedFloats seededRand (some 2) []
        = .error ⟨"payment amount not possible for limit: 1, sigma squared: -1109/50"⟩) ∧
    ¬ AmountsPossible steppedFloats seededRand ⟨9223372036854775808, 2⟩ := by
  refine ⟨⟨_, rfl, by decide +kernel⟩, fun h => ?_⟩
  exact absurd (h.limit 2 2 _ _ rfl rfl) (by decide)

end SimLn
