import SimLn.RandomActivity
import SimLn.Scheduler
import SimLn.Lib.Lists
import Mathlib.Data.Rat.Floor

/-!
# SimLn — random activity and the order of maps

The nodes come out of hash maps in no particular order. Their keys are distinct, so both sorts, of
the nodes that destinations are picked from and of the executors, put them in one order, and the
producer that is set up is the same for every order of the maps.
-/

namespace SimLn

open Lib

variable {F σ : Type} {f : Float64 F} {rand : Rand F σ} {cfg : RandomActivityCfg F}
  {attempts : Nat}

/-- More attempts do not change a destination that has been found. -/
theorem NetworkGraphView.chooseDestination_mono {view : NetworkGraphView σ} {source : PublicKey}
    {attempts attempts' : Nat} {rng rng' : σ} {node : NodeInfo × UInt64}
    (h : view.chooseDestination source attempts rng = .ok (node, rng')) (hle : attempts ≤ attempts') :
    view.chooseDestination source attempts' rng = .ok (node, rng') := by
  induction attempts generalizing attempts' rng with
  | zero => cases h
  | succ attempts ih =>
    cases attempts' with
    | zero => omega
    | succ attempts' =>
      unfold chooseDestination at h ⊢
      dsimp only at h ⊢
      split_ifs at h ⊢ with hsource
      · exact h
      · exact ih h (by omega)

/-! ## The active nodes -/

/-- No two of the nodes report one key. -/
def DistinctNodes (nodes : List NodeReport) : Prop :=
  nodes.Pairwise fun a b => ∀ x y, a.nodeInfo = .ok x → b.nodeInfo = .ok y → x.pubkey ≠ y.pubkey

theorem DistinctNodes.perm {nodes nodes' : List NodeReport} (h : DistinctNodes nodes)
    (hperm : nodes.Perm nodes') : DistinctNodes nodes' :=
  (hperm.pairwise_iff fun hab x y hx hy => (hab y x hy hx).symm).mp h

/-- The node is active, with this info and capacity. -/
def NodeReport.Active (expectedPaymentMsat : UInt64) (node : NodeReport)
    (active : NodeInfo × UInt64) : Prop :=
  ∃ chanCapacity, node.channelCapacities = .ok chanCapacity ∧
    RandomPaymentActivity.validateCapacity chanCapacity expectedPaymentMsat = .ok () ∧
    node.nodeInfo = .ok active.1 ∧ active.2 = chanCapacity / 2

section ActiveNodes

variable {expectedPaymentMsat : UInt64} {node : NodeReport} {nodes nodes' : List NodeReport}
  {table table' : Table PublicKey (NodeInfo × UInt64)}

/-- The first pass leaves a node out or inserts it. -/
theorem activeNodes_ok (h : activeNodes expectedPaymentMsat table node = .ok table') :
    (table' = table ∧ ∀ active, ¬node.Active expectedPaymentMsat active) ∨
      ∃ active, table' = table.insert active.1.pubkey active ∧
        ∀ other, node.Active expectedPaymentMsat other ↔ other = active := by
  unfold activeNodes at h
  split at h
  · cases h
  next chanCapacity hcapacity =>
    split at h
    next e hinvalid =>
      cases h
      refine .inl ⟨rfl, ?_⟩
      rintro active ⟨capacity, hcapacity', hvalid, -⟩
      rw [hcapacity] at hcapacity'
      cases hcapacity'
      rw [hinvalid] at hvalid
      cases hvalid
    next hvalid =>
      split at h
      · cases h
      next nodeInfo hinfo =>
        cases h
        refine .inr ⟨(nodeInfo, chanCapacity / 2), rfl, fun other => ?_⟩
        constructor
        · rintro ⟨capacity, hcapacity', -, hinfo', hhalf⟩
          rw [hcapacity] at hcapacity'
          cases hcapacity'
          rw [hinfo] at hinfo'
          cases hinfo'
          exact Prod.ext rfl hhalf
        · rintro rfl
          exact ⟨chanCapacity, hcapacity, hvalid, hinfo, rfl⟩

/-- Whether a node can be asked does not depend on the nodes before it. -/
theorem activeNodes_ok_of_ok (h : activeNodes expectedPaymentMsat table node = .ok table')
    (other : Table PublicKey (NodeInfo × UInt64)) :
    ∃ other', activeNodes expectedPaymentMsat other node = .ok other' := by
  unfold activeNodes at h ⊢
  split at h
  · cases h
  next hcapacity =>
    split at h
    · exact ⟨_, rfl⟩
    · split at h
      · cases h
      · exact ⟨_, rfl⟩

theorem NodeReport.Active.nodeInfo {active : NodeInfo × UInt64}
    (h : node.Active expectedPaymentMsat active) : node.nodeInfo = .ok active.1 := by
  obtain ⟨-, -, -, hinfo, -⟩ := h
  exact hinfo

/-- The first pass collects the active nodes by their keys. Induction on the nodes, with those
collected before in the table. -/
theorem lookup_foldlM_activeNodes (hdistinct : DistinctNodes nodes)
    (hfresh : ∀ node ∈ nodes, ∀ info, node.nodeInfo = .ok info → table.lookup info.pubkey = none)
    (h : nodes.foldlM (activeNodes expectedPaymentMsat) table = .ok table') (pubkey : PublicKey)
    (active : NodeInfo × UInt64) :
    table'.lookup pubkey = some active ↔ table.lookup pubkey = some active ∨
      ∃ node ∈ nodes, node.Active expectedPaymentMsat active ∧ active.1.pubkey = pubkey := by
  induction nodes generalizing table with
  | nil =>
    cases h
    simp
  | cons head rest ih =>
    obtain ⟨hhead, hrest⟩ := List.pairwise_cons.mp hdistinct
    obtain ⟨mid, hfirst, hlater⟩ := foldlM_cons_ok h
    -- a node that is left out adds nothing, one that is inserted has a key of its own
    rcases activeNodes_ok hfirst with ⟨rfl, hnone⟩ | ⟨own, rfl, hown⟩
    · rw [ih hrest (fun node hnode => hfresh node (by simp [hnode])) hlater]
      simp [hnone]
    · have hinfo := ((hown own).mpr rfl).nodeInfo
      have hnew := hfresh head (by simp) own.1 hinfo
      rw [ih hrest ?_ hlater, Table.lookup_insert_fresh own hnew]
      · simp only [List.mem_cons, exists_eq_or_imp, hown, Sigma.mk.injEq, heq_eq_eq]
        constructor
        · rintro ((h | ⟨rfl, rfl⟩) | h)
          · exact .inl h
          · exact .inr (.inl ⟨rfl, rfl⟩)
          · exact .inr (.inr h)
        · rintro (h | ⟨rfl, rfl⟩ | h)
          · exact .inl (.inl h)
          · exact .inl (.inr ⟨rfl, rfl⟩)
          · exact .inr h
      -- the keys of the rest are still free
      · intro node hnode info hnodeInfo
        have hne := hhead node hnode own.1 info hinfo hnodeInfo
        rw [AList.lookup_insert_ne hne.symm]
        exact hfresh node (by simp [hnode]) info hnodeInfo

/-- The active nodes have distinct keys and do not depend on the order of the nodes, but for their
own order. -/
theorem active_perm (hdistinct : DistinctNodes nodes) (hperm : nodes.Perm nodes')
    (h : nodes.foldlM (activeNodes expectedPaymentMsat) ∅ = .ok table) :
    ((table.entries.map fun e => e.2.1.pubkey).Nodup) ∧
      ∃ table', nodes'.foldlM (activeNodes expectedPaymentMsat) ∅ = .ok table' ∧
        table.entries.Perm table'.entries := by
  have hlookup := fun pubkey active =>
    lookup_foldlM_activeNodes hdistinct (by simp) h pubkey active
  constructor
  -- each node is stored under its own key
  · have hkeys : (table.entries.map fun e => e.2.1.pubkey) = table.keys := by
      refine List.map_congr_left fun e he => ?_
      have hentry := (hlookup e.1 e.2).mp (AList.mem_lookup_iff.mpr he)
      simp only [AList.lookup_empty, reduceCtorEq, false_or] at hentry
      obtain ⟨-, -, -, hkey⟩ := hentry
      exact hkey
    rw [hkeys]
    exact table.keys_nodup
  -- no node fails to answer, in any order
  · have hsteps : ∀ node ∈ nodes', ∀ other, ∃ other',
        activeNodes expectedPaymentMsat other node = .ok other' := by
      intro node hnode other
      obtain ⟨mid, mid', hmid⟩ := exists_ok_of_foldlM h (hperm.mem_iff.mpr hnode)
      exact activeNodes_ok_of_ok hmid other
    obtain ⟨table', htable'⟩ := foldlM_ok_of_forall hsteps ∅
    refine ⟨table', htable', Table.entries_perm fun pubkey => Option.ext fun active => ?_⟩
    rw [hlookup,
      lookup_foldlM_activeNodes (hdistinct.perm hperm) (by simp) htable']
    simp only [hperm.mem_iff]

end ActiveNodes

/-! ## What is set up -/

/-- The view of the network does not depend on the order of its nodes. -/
theorem NetworkGraphView.new_eq_of_perm {nodes nodes' : List (NodeInfo × UInt64)}
    (hkeys : (nodes.map fun n => n.1.pubkey).Nodup) (hperm : nodes.Perm nodes') :
    NetworkGraphView.new rand nodes = NetworkGraphView.new rand nodes' := by
  unfold NetworkGraphView.new
  rw [hperm.length_eq, hperm.any_eq, insertionSort_eq_of_perm hperm hkeys]

theorem randomExecutor_source {view : NetworkGraphView σ} {node : NodeInfo × UInt64}
    {kit : ExecutorKit (RandomState σ)}
    (h : randomExecutor f rand cfg attempts view node = .ok kit) : kit.source = node.1.pubkey := by
  unfold randomExecutor at h
  split at h
  · cases h
  · cases h
    rfl

/-- The executors have distinct sources and do not depend on the order of the maps, but for their
own order. -/
theorem randomActivityNodes_perm {nodes nodes' : List NodeReport}
    {values values' : List (NodeInfo × UInt64) → List (NodeInfo × UInt64)}
    {kits : List (ExecutorKit (RandomState σ))} (hdistinct : DistinctNodes nodes)
    (hnodes : nodes.Perm nodes') (hvalues : ∀ l, (values l).Perm l)
    (hvalues' : ∀ l, (values' l).Perm l)
    (h : randomActivityNodes f rand cfg attempts nodes values = .ok kits) :
    (kits.map (·.source)).Nodup ∧ ∃ kits',
      randomActivityNodes f rand cfg attempts nodes' values' = .ok kits' ∧ kits.Perm kits' := by
  unfold randomActivityNodes at h ⊢
  cases hfold : nodes.foldlM (activeNodes cfg.expectedPaymentMsat) ∅ with
  | error e =>
    rw [hfold] at h
    cases h
  | ok table =>
    obtain ⟨hkeys, table', hfold', htable⟩ := active_perm hdistinct hnodes hfold
    rw [hfold] at h
    rw [hfold']
    dsimp only at h ⊢
    have hactive : (values (table.entries.map Sigma.snd)).Perm
        (values' (table'.entries.map Sigma.snd)) :=
      (hvalues _).trans ((htable.map _).trans (hvalues' _).symm)
    have hactiveKeys : ((values (table.entries.map Sigma.snd)).map fun n => n.1.pubkey).Nodup := by
      rw [((hvalues _).map _).nodup_iff, List.map_map]
      exact hkeys
    -- both runs pick destinations from one view
    rw [← NetworkGraphView.new_eq_of_perm hactiveKeys hactive]
    split at h
    · cases h
    next view hview =>
      cases hmap : (values (table.entries.map Sigma.snd)).mapM
          (randomExecutor f rand cfg attempts view) with
      | error e =>
        rw [hmap] at h
        cases h
      | ok kits =>
        rw [hmap] at h
        cases h
        obtain ⟨kits', hmap', hkits⟩ := exists_mapM_of_perm hactive hmap
        refine ⟨?_, kits', by rw [hmap']; rfl, hkits⟩
        -- executors are built one for one from the active nodes
        have hsources : (values (table.entries.map Sigma.snd)).map (fun n => n.1.pubkey)
            = kits.map (·.source) := by
          rw [← List.forall₂_eq_eq_eq, List.forall₂_map_left_iff, List.forall₂_map_right_iff]
          exact (forall₂_of_mapM hmap).imp fun _ _ hkit => (randomExecutor_source hkit).symm
        rw [← hsources]
        exact hactiveKeys

/-- Executors with distinct sources are set up in one order. -/
theorem setupPaymentEvents_perm {γ : Type} {executors executors' : List (ExecutorKit γ)}
    (hdistinct : (executors.map (·.source)).Nodup) (hperm : executors.Perm executors')
    (now : SystemTime) (g : γ) :
    setupPaymentEvents executors now g = setupPaymentEvents executors' now g := by
  unfold setupPaymentEvents
  rw [insertionSort_eq_of_perm hperm hdistinct]

/-! ## Two nodes

Two nodes with 10 BTC of channels each, and what their generators yield with seed 2332.
-/

def firstKey : PublicKey :=
  ⟨0x02f6dc1fcf3431f461ff5e6d870f286e134b064fddd3795a98d5903c55e76cfa8c⟩

def secondKey : PublicKey :=
  ⟨0x0363a5321c2778e2f13f4d7602a84e866824551b4bd31fdfc66e044a274863d647⟩

/-- Rational numbers in place of floats, with the logarithms of the expected amount and of the
limit, and the root that is taken of twice their difference. -/
def seededFloats : Float64 ℚ where
  ofU64 n := n.toNat
  toU64 x := UInt64.ofNat (asU64 x.floor)
  mul x y := x * y
  div x y := x / y
  sub x y := x - y
  ln x := if x = 3800000 then 15.15 else 26.24
  sqrt _ := 4.71
  eq x y := x = y
  lt x y := x < y
  display x := toString x

/-- A generator's state is what it will yield: indices for the network, waits and amounts in turn
for a node. -/
def seededRand : Rand ℚ (List ℚ) where
  seedFromU64 seed :=
    if seed = 2332 then [1, 0, 1, 1, 0]
    else if seed = 14312378537760647804 then [2.46, 1775.16, 2.70, 12957.31, 5.45, 8.60]
    else if seed = 14155300287092840261 then [4.42, 172.61, 9.66, 47.63]
    else []
  hash bytes :=
    if bytes = firstKey.serialize ++ toLeBytes 2332 then 14312378537760647804
    else 14155300287092840261
  weightedIndex weights :=
    if h : 0 < weights.length then
      .ok fun rng => (⟨(rng.headD 0).floor.toNat % weights.length, Nat.mod_lt _ h⟩, rng.tail)
    else
      .error "No weights provided in distribution."
  exp _ := .ok fun rng => (rng.headD 0, rng.tail)
  logNormal _ _ := .ok fun rng => (rng.headD 0, rng.tail)

def seededGenerators : RandomState (List ℚ) := .new seededRand (some 2332) 0 fun _ => 0

def seededReports : List NodeReport :=
  [firstKey, secondKey].map fun key => ⟨.ok 1000000000000, .ok (nodeInfo key "")⟩

def seededNodes : Table PublicKey NodeInfo :=
  (AList.insert firstKey (nodeInfo firstKey "") ∅).insert secondKey (nodeInfo secondKey "")

def seededKits : Except RandomActivitySetupError (List (ExecutorKit (RandomState (List ℚ)))) :=
  randomActivityNodes seededFloats seededRand ⟨3800000, 2⟩ 10 seededReports id

/-- The producer of the two nodes, set up at time 0. -/
def seededSetup : Option (List Activity × Producer (RandomState (List ℚ))) :=
  seededKits.toOption.bind fun kits => (setupPaymentEvents kits 0 seededGenerators).toOption

theorem seededReports_distinct : DistinctNodes seededReports := by
  unfold DistinctNodes seededReports
  simp only [List.map_cons, List.map_nil, List.pairwise_cons, List.mem_singleton]
  refine ⟨?_, by simp⟩
  rintro b rfl x y hx hy
  cases hx
  cases hy
  decide

theorem exists_seededSetup : ∃ kits log p, seededKits = .ok kits ∧
    setupPaymentEvents kits 0 seededGenerators = .ok (log, p) ∧ seededSetup = some (log, p) := by
  have hsome : seededSetup.isSome = true := by decide +kernel
  unfold seededSetup at hsome ⊢
  cases hkits : seededKits with
  | error e =>
    rw [hkits] at hsome
    cases hsome
  | ok kits =>
    rw [hkits] at hsome
    cases hsetup : setupPaymentEvents kits 0 seededGenerators with
    | error e =>
      dsimp only [Except.toOption, Option.bind_some] at hsome
      rw [hsetup] at hsome
      cases hsome
    | ok setup =>
      refine ⟨kits, setup.1, setup.2, rfl, hsetup, ?_⟩
      dsimp only [Except.toOption, Option.bind_some]
      rw [hsetup]

end SimLn
