import SimLn.Node.Custody

/-!
# SimLn — what tracking a payment says

Two results about the payments of a node, whatever its calls and those of the other nodes do:

* `tracked_faithful`: a result that `track_payment` returns is the result of the one payment that the node
  has registered under the hash, nobody else has been told it, and it is true of the payment's HTLCs.
* `underWay_unique`: until the shutdown, no two payments of a node are under way with the same hash. A hash
  can be used again, but not before the outcome of its last payment is known.
-/

namespace SimLn

open Lib

section Told

variable {ν κ : Type} [DecidableEq ν] [DecidableEq κ] {network : SimGraph} {infos : ν → NodeInfo}
  {nodeOf : κ → ν} {calls : κ → Call} {trace : List (κ × NetworkEvent)}
  {w : World κ (NetworkState ν κ) (CallState κ)} {k : κ}

/-- The payments that have been dispatched; `req` stands in for those that have not. -/
def dispatchedRequests (req : PropagatePaymentRequest)
    (w : World κ (NetworkState ν κ) (CallState κ)) (k : κ) : PropagatePaymentRequest :=
  ((w.proc k).task.map Prod.fst).getD req

omit [DecidableEq ν] [DecidableEq κ] in
theorem dispatched_dispatchedRequests (req : PropagatePaymentRequest)
    (w : World κ (NetworkState ν κ) (CallState κ)) : Dispatched (dispatchedRequests req w) w := by
  intro k req' phase htask
  rw [dispatchedRequests, htask]
  rfl

/-- `result` is the result of the payment of call `j`, which was made on the same node as `k` and has
registered the payment under `hash`. -/
structure Told (network : SimGraph) (infos : ν → NodeInfo) (nodeOf : κ → ν)
    (trace : List (κ × NetworkEvent)) (w : World κ (NetworkState ν κ) (CallState κ)) (k : κ)
    (hash : PaymentHash) (result : PaymentResult) (j : κ) : Prop where
  node : nodeOf j = nodeOf k
  accepted : ∃ returned, (w.proc j).phase = .returned returned ∧ returned.Accepted hash
  /-- Nobody else has been given the receiver. -/
  once : ∀ k', (w.proc k').receiver = some j → k' = k
  /-- No route was found, or the payment is finished and the result is true of its HTLCs. -/
  outcome : (result = ⟨0, .routeNotFound⟩ ∧ (w.proc j).task = none) ∨
    ∃ req, (w.proc j).task = some (req, .finished result) ∧
      req.source = (infos (nodeOf k)).pubkey ∧ req.paymentHash = hash ∧
      FaithfulOutcome (dispatchedRequests req w) network.channels (observed ofPayment trace) w.shared.channels j
        result

/-- The errors that `track_payment` returns. -/
inductive TrackError (hash : PaymentHash) : LightningError → Prop where
  | notFound : TrackError hash (notFound hash)
  | shutdown : TrackError hash (.trackPaymentError "shutdown during payment tracking")
  | clock : TrackError hash .systemTimeConversionError
  | scorer (message : String) :
      TrackError hash (.trackPaymentError s!"scorer lock poisoned: {message}")

/-- What `track_payment` makes of the payment registered under `hash`. -/
structure FaithfullyTracked (network : SimGraph) (infos : ν → NodeInfo) (nodeOf : κ → ν)
    (trace : List (κ × NetworkEvent)) (w : World κ (NetworkState ν κ) (CallState κ)) (k : κ)
    (hash : PaymentHash) (res : Except LightningError PaymentResult) : Prop where
  error : ∀ err, res = .error err → TrackError hash err
  ok : ∀ result, res = .ok result → ∃ j, Told network infos nodeOf trace w k hash result j

/-- A result in the channel of a payment is that of the payment registered. -/
theorem told_of_registered (h : NetworkRun network infos nodeOf calls trace w) {j : κ}
    {hash : PaymentHash} {inFlight : InFlightPayment} {result : PaymentResult}
    (hreceiver : (w.proc k).receiver = some j) (hnode : nodeOf j = nodeOf k)
    (hregistered : Registered (infos (nodeOf k)).pubkey hash inFlight (w.proc j)
      (.sent result)) : Told network infos nodeOf trace w k hash result j := by
  have honce : ∀ k', (w.proc k').receiver = some j → k' = k :=
    fun k' hk' => (run_custody h).once k' k j hk' hreceiver
  generalize hp : w.proc j = p at hregistered
  cases hregistered with
  | unrouted =>
    exact ⟨hnode, ⟨_, by rw [hp], .inl rfl⟩, honce, .inl ⟨rfl, by rw [hp]⟩⟩
  | @finished req payment returned hreturned hsource hhash =>
    have htask : (w.proc j).task = some (req, .finished result) := by rw [hp]
    refine ⟨hnode, ⟨returned, by rw [hp], hreturned⟩, honce, .inr ⟨req, htask, hsource, hhash, ?_⟩⟩
    -- what holds of the run of the payments
    have hrun := run_tasks h (dispatched_dispatchedRequests req w)
    apply run_faithful hrun
    show (w.proc j).progress _ = _
    rw [CallState.progress, htask]
    rfl

omit [DecidableEq κ] in
/-- The outcome of a payment passes through `track_payment` unless the clock or the scorer fails. -/
theorem tracked_result {source : PublicKey} {hash : PaymentHash} {inFlight : InFlightPayment}
    {p : CallState κ} {result : PaymentResult}
    (h : Registered source hash inFlight p (.sent result)) (sinceEpoch : Option Nat)
    (scorer : Except String Unit) :
    (inFlight.tracked (.result (.ok result)) sinceEpoch scorer).1 = .ok result ∨
      (inFlight.tracked (.result (.ok result)) sinceEpoch scorer).1 = .error .systemTimeConversionError ∨
      ∃ message : String, (inFlight.tracked (.result (.ok result)) sinceEpoch scorer).1
        = .error (.trackPaymentError s!"scorer lock poisoned: {message}") := by
  cases sinceEpoch with
  | none => exact .inr (.inl rfl)
  | some duration =>
    cases h with
    | unrouted => exact .inl rfl
    | finished =>
      cases scorer with
      | error message => exact .inr (.inr ⟨message, rfl⟩)
      | ok => exact .inl rfl

/-- What a call that has returned was told: nothing, if its node did not know the payment, or the outcome of
the payment that it took out of the node's map. -/
theorem run_tracks (h : NetworkRun network infos nodeOf calls trace w)
    {res : Except LightningError PaymentResult}
    (hreturned : (w.proc k).phase = .returned (.tracked res)) :
    ∃ hash, calls k = .trackPayment hash ∧ (res = .error (notFound hash) ∨ ∃ j inFlight,
      (w.proc k).receiver = some j ∧ nodeOf j = nodeOf k ∧
      Registered (infos (nodeOf k)).pubkey hash inFlight (w.proc j) (w.shared.results j) ∧
      Tracks inFlight (w.shared.results j) (.returned (.tracked res))) := by
  have hcustody := run_custody h
  rcases hcustody.returned k res hreturned with ⟨j, hreceiver⟩ | ⟨hash, hcall, rfl⟩
  · obtain ⟨hash, inFlight, hcall, hnode, hregistered, htracks⟩ := hcustody.tracker k j hreceiver
    rw [hreturned] at htracks
    exact ⟨hash, hcall, .inr ⟨j, inFlight, hreceiver, hnode, hregistered, htracks⟩⟩
  · exact ⟨hash, hcall, .inl rfl⟩

/-- What is made of the result says what the result says. -/
theorem FaithfullyTracked.of_tracks (h : NetworkRun network infos nodeOf calls trace w)
    {hash : PaymentHash} {res : Except LightningError PaymentResult} {j : κ}
    {inFlight : InFlightPayment} (hreceiver : (w.proc k).receiver = some j)
    (hnode : nodeOf j = nodeOf k)
    (hregistered : Registered (infos (nodeOf k)).pubkey hash inFlight (w.proc j) (w.shared.results j))
    (htracks : Tracks inFlight (w.shared.results j) (.returned (.tracked res))) :
    FaithfullyTracked network infos nodeOf trace w k hash res := by
  generalize hcell : w.shared.results j = cell at hregistered htracks
  cases htracks with
  | interrupted =>
    refine ⟨fun err herr => ?_, fun result hok => (by cases hok)⟩
    cases herr
    exact .shutdown
  | @told result hsent sinceEpoch scorer =>
    rw [hsent] at hregistered
    rcases tracked_result hregistered sinceEpoch scorer with hok | hclock | ⟨message, hscorer⟩
    · rw [hok]
      refine ⟨fun err herr => (by cases herr), fun result' hresult => ?_⟩
      cases hresult
      exact ⟨j, told_of_registered h hreceiver hnode hregistered⟩
    · rw [hclock]
      refine ⟨fun err herr => ?_, fun result' hresult => (by cases hresult)⟩
      cases herr
      exact .clock
    · rw [hscorer]
      refine ⟨fun err herr => ?_, fun result' hresult => (by cases hresult)⟩
      cases herr
      exact .scorer message

omit [DecidableEq ν] in
/-- Nothing is said of a hash that is not registered. -/
theorem FaithfullyTracked.notFound (hash : PaymentHash) :
    FaithfullyTracked network infos nodeOf trace w k hash (.error (notFound hash)) := by
  refine ⟨fun err herr => ?_, fun result hok => (by cases hok)⟩
  cases herr
  exact .notFound

/-- **Tracking is faithful.** In every run of calls on the nodes of a network, a result that
`track_payment` returns is that of the one payment which its node has registered under the hash: that no
route was found, or what the payment's task has reported, which is true of its HTLCs. The sender of the
result is never dropped before. -/
theorem tracked_faithful (h : NetworkRun network infos nodeOf calls trace w)
    {res : Except LightningError PaymentResult}
    (hreturned : (w.proc k).phase = .returned (.tracked res)) :
    ∃ hash, calls k = .trackPayment hash ∧
      FaithfullyTracked network infos nodeOf trace w k hash res := by
  obtain ⟨hash, hcall, rfl | ⟨j, inFlight, hreceiver, hnode, hregistered, htracks⟩⟩ :=
    run_tracks h hreturned
  · exact ⟨hash, hcall, .notFound hash⟩
  · exact ⟨hash, hcall, .of_tracks h hreceiver hnode hregistered htracks⟩

end Told

/-- Alice sends the payment that Bob refuses to forward, and tracks it. -/
def stingyCalls : Bool → Call
  | false => .sendToRoute ⟨[stingyPayment.route]⟩ ⟨1⟩ none
  | true => .trackPayment ⟨1⟩

abbrev StingyRun :=
  NetworkRun threeNodesGraph (fun _ : Unit => nodeInfo alice "") (fun _ => ()) stingyCalls

/-- Alice is told that her payment has failed at the first hop. -/
theorem tracked_faithful_stingyCalls :
    ∃ trace w, StingyRun trace w ∧ ∃ j, Told threeNodesGraph (fun _ : Unit => nodeInfo alice "")
      (fun _ => ()) trace w true ⟨1⟩ ⟨0, .indexFailure 0⟩ j := by
  have h1 : StingyRun _ _ := NetworkRun.step .refl false (.send rfl (.sendToRoute rfl rfl))
  have h2 := h1.step false (.send rfl .route)
  have h3 := h2.step false (.pay rfl (.add rfl))
  have h4 := h3.step false (.pay rfl (.remove rfl))
  have h5 := h4.step false (.pay rfl (.advance rfl))
  have h6 := h5.step true (.take rfl (.trackPayment rfl))
  have h7 := h6.step true (.outcome rfl rfl (.result rfl rfl) (some 5) (.ok ()))
  obtain ⟨hash, hcall, htracked⟩ := tracked_faithful (k := true) h7
    (show _ = CallPhase.returned (.tracked (.ok ⟨0, .indexFailure 0⟩)) from rfl)
  cases hcall
  exact ⟨_, _, h7, htracked.ok _ rfl⟩

/-! ## Hashes under way -/

/-- The hash of a payment whose task has not reported its result. -/
def unreported : PropagatePaymentRequest × Phase → Option PaymentHash
  | (_, .finished _) => none
  | (req, _) => some req.paymentHash

/-- The hash of the call's payment, from its registration until its result is reported. -/
def CallState.underWay {κ : Type} (p : CallState κ) : Option PaymentHash :=
  match p.phase with
  | .dispatching hash _ | .routing _ hash _ => some hash
  | _ => p.task.bind unreported

section Steps

variable {κ : Type} {p : CallState κ}

/-- A payment whose result has been sent is not under way. -/
theorem Registered.underWay {source : PublicKey} {hash : PaymentHash} {inFlight : InFlightPayment}
    {payment : PaymentResult} (h : Registered source hash inFlight p (.sent payment)) :
    p.underWay = none := by
  cases h <;> rfl

theorem underWay_returned {result : CallResult} (hphase : p.phase = .returned result) :
    p.underWay = p.task.bind unreported := by
  rw [CallState.underWay, hphase]

/-- A payment is dispatched under the hash that it was registered with. -/
theorem unreported_start {network : SimGraph} {source : PublicKey} {route : Route}
    {customRecords : Option CustomRecords} {hash hash' : PaymentHash}
    (h : ([CallEvent.dispatched (network.dispatchPayment source route customRecords hash)].findSome?
      CallEvent.spawned).bind unreported = some hash') : hash' = hash := by
  rw [SimGraph.dispatchPayment] at h
  split at h
  · exact (Option.some.inj h).symm
  · cases h

/-- A payment that has not reported its result had not reported it before. -/
theorem Step.unreported {req : PropagatePaymentRequest} {channels channels' : Channels}
    {phase phase' : Phase} {es : List Event} (h : Step req channels phase es channels' phase')
    {hash : PaymentHash} (hafter : SimLn.unreported (req, phase') = some hash) :
    SimLn.unreported (req, phase) = some hash := by
  have hhash : req.paymentHash = hash := by
    cases phase' with
    | finished => cases hafter
    | _ => exact Option.some.inj hafter
  cases phase with
  | finished => cases h
  | _ => exact congrArg some hhash

variable {ν : Type} [DecidableEq ν] [DecidableEq κ] {network : SimGraph} {nodeOf : κ → ν} {k : κ}
  {s s' : NetworkState ν κ} {p' : CallState κ} {es : List NetworkEvent} {hash : PaymentHash}

/-- A payment gets under way by being registered. -/
theorem NetworkStep.underWay (hs : NetworkStep network nodeOf k s p es s' p')
    (htasked : ∀ task, p.task = some task → ∃ result, p.phase = .returned result)
    (hafter : p'.underWay = some hash) :
    p.underWay = some hash ∨ (s'.receivers (nodeOf k)).lookup hash = some k := by
  have hnone : (∀ result, p.phase ≠ .returned result) → p.task = none := by
    intro hnot
    by_contra hne
    obtain ⟨task, htask⟩ := Option.ne_none_iff_exists'.mp hne
    obtain ⟨result, hreturned⟩ := htasked task htask
    exact hnot result hreturned
  cases hs with
  | @send es node phase hsends hstep =>
    have htask := hnone fun result h => (by rw [h] at hsends; cases hsends)
    change CallState.underWay ⟨phase, p.receiver, p.task.or (es.findSome? CallEvent.spawned)⟩ = _
      at hafter
    rw [htask, Option.none_or] at hafter
    generalize hphase : p.phase = from_ at hstep hsends
    cases hstep with
    | trackPayment | outcome => cases hsends
    | routeFound | pathfindingFailed | badRoute => cases hafter
    | @dispatch hash' route =>
      rw [CallState.underWay, hphase]
      exact .inl (congrArg some (unreported_start hafter).symm)
    | @route route hash' customRecords =>
      rw [CallState.underWay, hphase]
      exact .inl (congrArg some (unreported_start hafter).symm)
    | @sendPayment hash' route hfree =>
      rcases (s.nodes (nodeOf k)).node.registerPayment_cases hash' route with
        ⟨err, heq⟩ | ⟨hfresh, heq⟩ | ⟨route, path, hpaths, hfresh, heq⟩
      · rw [heq] at hafter
        cases hafter
      · rw [heq] at hafter
        cases hafter
      · rw [heq] at hafter ⊢
        obtain rfl := Option.some.inj hafter
        refine .inr ?_
        show (Function.update s.receivers _ _ _).lookup _ = _
        rw [Function.update_self, AList.lookup_insert]
    | @sendToRoute route path hash' customRecords hfree hpaths =>
      rw [SimNode.registerRoute] at hafter ⊢
      split at hafter
      · cases hafter
      next hfresh =>
        rw [if_neg hfresh]
        obtain rfl := Option.some.inj hafter
        refine .inr ?_
        show (Function.update s.receivers _ _ _).lookup _ = _
        rw [Function.update_self, AList.lookup_insert]
  | @take hash' node phase hphase hstep =>
    have htask := hnone fun result h => (by cases hphase.symm.trans h)
    change CallState.underWay ⟨phase, _, p.task⟩ = _ at hafter
    rw [htask] at hafter
    cases hstep
    rw [SimNode.takePayment] at hafter
    split at hafter <;> cases hafter
  | outcome hphase =>
    have htask := hnone fun result h => (by cases hphase.symm.trans h)
    rw [underWay_returned rfl, htask] at hafter
    cases hafter
  | @pay req phase phase' es channels htask hstep =>
    obtain ⟨result, hreturned⟩ := htasked _ htask
    have hafter' := (underWay_returned (p := { p with task := some (req, phase') }) hreturned).symm.trans
      hafter
    rw [underWay_returned hreturned, htask]
    exact .inl (hstep.unreported hafter')

/-- The shutdown is never taken back. -/
theorem NetworkStep.triggered (hs : NetworkStep network nodeOf k s p es s' p')
    (htriggered : s.triggered = true) : s'.triggered = true := by
  cases hs with
  | send => exact (NetworkState.foldl_observe_triggered _ _ _ _).trans htriggered
  | take | outcome => exact htriggered
  | pay htask hstep => exact NetworkState.foldl_notice_triggered _ _ _ htriggered

end Steps

section Runs

variable {ν κ : Type} [DecidableEq ν] [DecidableEq κ] {network : SimGraph} {infos : ν → NodeInfo}
  {nodeOf : κ → ν} {calls : κ → Call} {trace : List (κ × NetworkEvent)}
  {w : World κ (NetworkState ν κ) (CallState κ)} {k : κ}

/-- The lock of a node belongs to the call on it that keeps the guard. -/
theorem run_owner (h : NetworkRun network infos nodeOf calls trace w) (n : ν) (k : κ) :
    (w.shared.nodes n).owner = some k ↔ nodeOf k = n ∧ (w.proc k).phase.holdsGuard = true := by
  refine (run_lockInv (run_nodeCalls h n) k).trans ?_
  show (if nodeOf k = n then (w.proc k).phase else (calls k).start).holdsGuard = true ↔ _
  by_cases hn : nodeOf k = n
  · rw [if_pos hn]
    exact ⟨fun h => ⟨hn, h⟩, And.right⟩
  · rw [if_neg hn]
    refine ⟨fun hguard => ?_, fun h => absurd h.1 hn⟩
    cases hcall : calls k <;> rw [hcall] at hguard <;> cases hguard

/-- A call that tracks has a payment in flight. -/
theorem CallPhase.exists_of_isTracking {phase : CallPhase} (h : phase.isTracking = true) :
    ∃ inFlight, phase = .tracking inFlight := by
  cases phase with
  | tracking inFlight => exact ⟨inFlight, rfl⟩
  | _ => cases h

/-- Who keeps the payments that are under way, as long as nothing has been shut down. -/
structure Kept (nodeOf : κ → ν) (calls : κ → Call) (s : NetworkState ν κ) (proc : κ → CallState κ) :
    Prop where
  /-- Its receiver is in the map of its node, or with a call that waits for the outcome. -/
  holder : ∀ j hash, (proc j).underWay = some hash →
    (s.receivers (nodeOf j)).lookup hash = some j ∨
      ∃ i, (proc i).phase.isTracking = true ∧ (proc i).receiver = some j
  /-- A hash that is waited for has not been registered again. -/
  cleared : ∀ i hash, (proc i).phase.isTracking = true → calls i = .trackPayment hash →
    hash ∉ s.receivers (nodeOf i)

variable {s s' : NetworkState ν κ} {proc : κ → CallState κ} {p' : CallState κ}
  {es : List NetworkEvent}

/-- A payment under way is still kept after a step, by the call that has it or by the one that takes
it. -/
theorem Kept.holder_step (hcustody : Custody infos nodeOf calls s proc)
    (hs : NetworkStep network nodeOf k s (proc k) es s' p') (hquiet : s.triggered = false) {j : κ}
    {hash : PaymentHash} (hunderWay : (proc j).underWay = some hash)
    (hkept : (s.receivers (nodeOf j)).lookup hash = some j ∨
      ∃ i, (proc i).phase.isTracking = true ∧ (proc i).receiver = some j) :
    (s'.receivers (nodeOf j)).lookup hash = some j ∨
      ∃ i, (Function.update proc k p' i).phase.isTracking = true ∧
        (Function.update proc k p' i).receiver = some j := by
  rcases hkept with hlookup | ⟨i, htracking, hreceiver⟩
  · have hmem : hash ∈ s.receivers (nodeOf j) :=
      AList.lookup_isSome.mp (Option.isSome_of_eq_some hlookup)
    cases hs.effect with
    | none hnodes hreceivers => exact .inl (hreceivers ▸ hlookup)
    | @registered hash' inFlight owner hunregistered hfree hfresh hnodes hreceivers =>
      refine .inl ?_
      rw [hreceivers]
      by_cases hn : nodeOf j = nodeOf k
      · rw [hn] at hlookup hmem ⊢
        rw [Function.update_self, AList.lookup_insert_ne, hlookup]
        rintro rfl
        exact hfresh (hcustody.listed _ hash hmem)
      · rw [Function.update_of_ne hn, hlookup]
    | @taken hash' owner hphase hfree hnodes hreceivers htaken hphase' =>
      by_cases hn : nodeOf j = nodeOf k
      · by_cases hhash : hash = hash'
        · subst hhash
          rw [hn] at hlookup hmem
          obtain ⟨inFlight, hinFlight⟩ := Option.isSome_iff_exists.mp
            (AList.lookup_isSome.mpr (hcustody.listed _ hash hmem))
          refine .inr ⟨k, ?_, ?_⟩
          · rw [Function.update_self, hphase', SimNode.takePayment, hinFlight]
            rfl
          · rw [Function.update_self, htaken, hlookup]
        · rw [hreceivers, hn, Function.update_self, AList.lookup_erase_ne hhash, ← hn]
          exact .inl hlookup
      · rw [hreceivers, Function.update_of_ne hn]
        exact .inl hlookup
  · refine .inr ⟨i, ?_⟩
    by_cases hik : i = k
    · subst hik
      rw [Function.update_self]
      -- the wait ends with the result only, and then the payment is not under way
      obtain ⟨hash', inFlight, -, -, hregistered, -⟩ := hcustody.tracker i j hreceiver
      obtain ⟨waited, hwaiting⟩ := CallPhase.exists_of_isTracking htracking
      generalize proc i = p at hs htracking hreceiver hwaiting
      cases hs with
      | send hsends =>
        rw [hwaiting] at hsends
        cases hsends
      | take hphase =>
        rw [hphase] at htracking
        cases htracking
      | outcome hphase hreceiver' houtcome =>
        obtain rfl := Option.some.inj (hreceiver'.symm.trans hreceiver)
        cases houtcome with
        | shutdown htriggered => cases htriggered.symm.trans hquiet
        | closed message hquiet hclosed => exact absurd hclosed hregistered.cell_ne_closed
        | result hquiet hsent =>
          rw [hsent] at hregistered
          rw [hregistered.underWay] at hunderWay
          cases hunderWay
      | pay => exact ⟨htracking, hreceiver⟩
    · rw [Function.update_of_ne hik]
      exact ⟨htracking, hreceiver⟩

/-- A hash that is being tracked is not put into the map again: its node is locked. -/
theorem Kept.cleared_step (hcustody : Custody infos nodeOf calls s proc)
    (hs : NetworkStep network nodeOf k s (proc k) es s' p') (h : Kept nodeOf calls s proc)
    (howner : ∀ i, (proc i).phase.isTracking = true → (s.nodes (nodeOf i)).owner = some i) (i : κ)
    (hash : PaymentHash) (htracking : (Function.update proc k p' i).phase.isTracking = true)
    (hcall : calls i = .trackPayment hash) : hash ∉ s'.receivers (nodeOf i) := by
  have hold : (proc i).phase.isTracking = true → hash ∉ s'.receivers (nodeOf i) := by
    intro htracking
    have hclear := h.cleared i hash htracking hcall
    cases hs.effect with
    | none hnodes hreceivers => exact hreceivers ▸ hclear
    | registered hunregistered hfree hfresh hnodes hreceivers =>
      rw [hreceivers]
      by_cases hn : nodeOf i = nodeOf k
      · -- nobody registers a payment on a node whose lock is taken
        rw [← hn, howner i htracking] at hfree
        cases hfree
      · rwa [Function.update_of_ne hn]
    | taken hphase hfree hnodes hreceivers =>
      rw [hreceivers]
      by_cases hn : nodeOf i = nodeOf k
      · rw [hn, Function.update_self]
        rw [hn] at hclear
        exact fun hmem => hclear (AList.mem_erase.mp hmem).2
      · rwa [Function.update_of_ne hn]
  by_cases hik : i = k
  · subst hik
    rw [Function.update_self] at htracking
    rcases hs.phase_cases with ⟨hsame, -⟩ | ⟨-, ⟨_, _, hsend⟩, -⟩ | ⟨hsettled, -⟩
      | ⟨hash', inFlight, hbefore, -, hafter, -⟩
    · exact hold (hsame ▸ htracking)
    · rw [hsend] at htracking
      cases htracking
    · rw [(CallPhase.settled_spec hsettled).2] at htracking
      cases htracking
    · -- it has just erased the hash
      have hhash := (hcustody.asked i hash' hbefore).symm.trans hcall
      cases hhash
      generalize proc i = p at hs hbefore
      cases hs with
      | send hsends =>
        rw [hbefore] at hsends
        cases hsends
      | take hphase hstep =>
        cases hbefore.symm.trans hphase
        show hash ∉ Function.update s.receivers _ _ _
        rw [Function.update_self]
        exact fun hmem => (AList.mem_erase.mp hmem).1 rfl
      | outcome hphase => cases hbefore.symm.trans hphase
      | pay => cases hbefore.symm.trans hafter
  · rw [Function.update_of_ne hik] at htracking
    exact hold htracking

/-- So it is in every run before a shutdown. -/
theorem run_kept (h : NetworkRun network infos nodeOf calls trace w)
    (hquiet : w.shared.triggered = false) : Kept nodeOf calls w.shared w.proc := by
  induction h with
  | refl =>
    refine ⟨fun j hash hunderWay => ?_, fun i hash htracking => ?_⟩
    · cases hcall : calls j <;>
        simp [connected, hcall, Call.start, CallState.underWay] at hunderWay
    · cases hcall : calls i <;> simp [connected, hcall, Call.start, CallPhase.isTracking] at htracking
  | @tail trace w k es s' p' hrun hs ih =>
    obtain ⟨after, interrupted, hs, rfl⟩ := hs
    have hafter : after.triggered = false := (Bool.or_eq_false_iff.mp hquiet).1
    have hbefore : w.shared.triggered = false := by
      by_contra htriggered
      rw [hs.triggered (by simpa using htriggered)] at hafter
      cases hafter
    have hkept := ih hbefore
    have hcustody := run_custody hrun
    refine ⟨fun j hash hunderWay => ?_, ?_⟩
    · by_cases hjk : j = k
      · subst hjk
        change (Function.update w.proc j p' j).underWay = some hash at hunderWay
        rw [Function.update_self] at hunderWay
        rcases hs.underWay (hcustody.tasked j) hunderWay with hunderWay | hlookup
        · exact Kept.holder_step hcustody hs hbefore hunderWay (hkept.holder j hash hunderWay)
        · exact .inl hlookup
      · change (Function.update w.proc k p' j).underWay = some hash at hunderWay
        rw [Function.update_of_ne hjk] at hunderWay
        exact Kept.holder_step hcustody hs hbefore hunderWay (hkept.holder j hash hunderWay)
    · have howner : ∀ i, (w.proc i).phase.isTracking = true →
          (w.shared.nodes (nodeOf i)).owner = some i := fun i htracking =>
        (run_owner hrun (nodeOf i) i).mpr ⟨rfl, CallPhase.holdsGuard_of_isTracking htracking⟩
      exact fun i hash htracking => Kept.cleared_step hcustody hs hkept howner i hash htracking

/-- **No hash twice.** Until a shutdown, the payments of a node that are under way have different hashes,
whatever the node's calls are and in whatever order they take their steps. -/
theorem underWay_unique (h : NetworkRun network infos nodeOf calls trace w)
    (hquiet : w.shared.triggered = false) {j j' : κ} (hnode : nodeOf j = nodeOf j')
    {hash : PaymentHash} (hj : (w.proc j).underWay = some hash)
    (hj' : (w.proc j').underWay = some hash) : j = j' := by
  have hkept := run_kept h hquiet
  have hcustody := run_custody h
  -- a call that waits for `j` is on the same node and waits for the same hash
  have hwaits : ∀ j i, (w.proc j).underWay = some hash → (w.proc i).receiver = some j →
      nodeOf j = nodeOf i ∧ calls i = .trackPayment hash := by
    intro j i hunderWay hreceiver
    obtain ⟨hash', inFlight, hcall, hnode, hregistered, -⟩ := hcustody.tracker i j hreceiver
    refine ⟨hnode, hcall.trans (congrArg _ ?_)⟩
    generalize w.proc j = p at hunderWay hregistered
    generalize w.shared.results j = cell at hregistered
    cases hregistered with
    | unrouted | finished => cases hunderWay
    | dispatching | routing => exact Option.some.inj hunderWay
    | @running req phase result hreturned hsource hhash hunfinished =>
      rw [← hhash]
      cases phase with
      | finished payment => exact absurd rfl (hunfinished payment)
      | _ => exact Option.some.inj hunderWay
  -- so it is in the way of any other payment with this hash
  have hblocked : ∀ j j' i, nodeOf j = nodeOf j' → (w.proc j).underWay = some hash →
      (w.proc i).phase.isTracking = true → (w.proc i).receiver = some j →
      (w.shared.receivers (nodeOf j')).lookup hash ≠ some j' := by
    intro j j' i hnode hunderWay htracking hreceiver hlookup
    obtain ⟨hi, hcall⟩ := hwaits j i hunderWay hreceiver
    apply hkept.cleared i hash htracking hcall
    rw [← hi, hnode]
    exact AList.lookup_isSome.mp (Option.isSome_of_eq_some hlookup)
  rcases hkept.holder j hash hj with hlookup | ⟨i, htracking, hreceiver⟩
  · rcases hkept.holder j' hash hj' with hlookup' | ⟨i', htracking', hreceiver'⟩
    · rw [hnode] at hlookup
      exact Option.some.inj (hlookup.symm.trans hlookup')
    · exact absurd hlookup (hblocked j' j i' hnode.symm hj' htracking' hreceiver')
  · rcases hkept.holder j' hash hj' with hlookup' | ⟨i', htracking', hreceiver'⟩
    · exact absurd hlookup' (hblocked j j' i hnode hj htracking hreceiver)
    · -- two calls that wait on one node would both have its lock
      have howner := (run_owner h (nodeOf i) i).mpr
        ⟨rfl, CallPhase.holdsGuard_of_isTracking htracking⟩
      have howner' := (run_owner h (nodeOf i') i').mpr
        ⟨rfl, CallPhase.holdsGuard_of_isTracking htracking'⟩
      rw [← (hwaits j i hj hreceiver).1, hnode, (hwaits j' i' hj' hreceiver').1] at howner
      obtain rfl := Option.some.inj (howner.symm.trans howner')
      exact Option.some.inj (hreceiver.symm.trans hreceiver')

end Runs

/-- Alice sends under one hash twice, and tracks the first of the two payments in between. -/
def repeatedCalls : Fin 3 → Call
  | 1 => .trackPayment ⟨1⟩
  | _ => .sendToRoute ⟨[stingyPayment.route]⟩ ⟨1⟩ none

abbrev RepeatedRun :=
  NetworkRun threeNodesGraph (fun _ : Unit => nodeInfo alice "") (fun _ => ()) repeatedCalls

/-- The hash can be used again once tracking has taken it out of the map. The first payment, which is
over by then, is not under way. -/
theorem underWay_unique_repeatedCalls :
    ∃ trace w, RepeatedRun trace w ∧ (w.proc 0).task.isSome = true ∧ (w.proc 2).task.isSome = true ∧
      (w.proc 2).underWay = some ⟨1⟩ ∧ ∀ j, (w.proc j).underWay = some ⟨1⟩ → 2 = j := by
  have h : RepeatedRun _ _ := NetworkRun.step .refl 0 (.send rfl (.sendToRoute rfl rfl))
  have h := h.step 0 (.send rfl .route)
  have h := h.step 0 (.pay rfl (.add rfl))
  have h := h.step 0 (.pay rfl (.remove rfl))
  have h := h.step 0 (.pay rfl (.advance rfl))
  have h := h.step 1 (.take rfl (.trackPayment rfl))
  have h := h.step 1 (.outcome rfl rfl (.result rfl rfl) (some 5) (.ok ()))
  -- the second payment
  have h := h.step 2 (.send rfl (.sendToRoute rfl rfl))
  have h := h.step 2 (.send rfl .route)
  exact ⟨_, _, h, rfl, rfl, rfl, fun j hj => underWay_unique h rfl rfl rfl hj⟩

end SimLn
