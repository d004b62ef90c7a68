import SimLn.Simulated.Network

/-!
# SimLn — a payment and its own result

A node keeps the receivers of its payments by hash, and hashes are drawn at random. Two payments of a node
may draw the same, and still each is told its own result: a hash that is in use is refused, and it is in use
until the payment's own tracker has taken the receiver, since a tracker is only started once its payment has
been sent (`Paired`).
-/

namespace SimLn

open Lib

/-! ## Where the two calls are -/

/-- A call that sends payment `n`, and the task that it has spawned. -/
inductive SendCall (env : Setting) (n : Nat) (d : Dispatch) : CallState PaymentCall → Prop where
  | findingRoute : SendCall env n d ⟨.findingRoute, none, none⟩
  | sendPayment {route : Except SimulationError Route}
      (hroute : ∀ found, route = .ok found → env.Finds d found) :
      SendCall env n d ⟨.sendPayment (env.hashes n) route, none, none⟩
  | refused (e : LightningError) : SendCall env n d ⟨.returned (.sent (.error e)), none, none⟩
  | unrouted : SendCall env n d ⟨.returned (.sent (.ok (env.hashes n))), none, none⟩
  | dispatching {route : Route} {path : Path} (hroute : env.Finds d route)
      (hpaths : route.paths = [path]) :
      SendCall env n d ⟨.dispatching (env.hashes n) route, none, none⟩
  | running {route : Route} {req : PropagatePaymentRequest} {phase : Phase}
      (hroute : env.Finds d route) (hpaths : route.paths = [req.route])
      (hsource : req.source = d.event.source) (hhash : req.paymentHash = env.hashes n) :
      SendCall env n d ⟨.returned (.sent (.ok (env.hashes n))), none, some (req, phase)⟩

/-- A call that asks for the result of payment `n`. -/
inductive TrackCall (env : Setting) (n : Nat) : CallState PaymentCall → Prop where
  | waiting : TrackCall env n ⟨.trackPayment (env.hashes n), none, none⟩
  | tracking {inFlight : InFlightPayment} : TrackCall env n ⟨.tracking inFlight, some (.send n), none⟩
  | returned {res : Except LightningError PaymentResult} :
      TrackCall env n ⟨.returned (.tracked res), some (.send n), none⟩

/-- The call has registered its payment and has not been refused. -/
def CallPhase.accepted : CallPhase → Bool
  | .dispatching _ _ | .returned (.sent (.ok _)) => true
  | _ => false

section Steps

variable {env : Setting} {n : Nat} {d : Dispatch} {p p' : CallState PaymentCall}
  {nodeOf : PaymentCall → PublicKey} {shared shared' : NetworkState PublicKey PaymentCall}
  {es : List NetworkEvent}

/-- A payment is dispatched on the route that was found. -/
theorem SimNode.route_of_dispatching {self : SimNode} {hash hash' : PaymentHash}
    {route : Except SimulationError Route} {found : Route}
    (h : (self.registerPayment hash route).2.2 = .dispatching hash' found) : route = .ok found := by
  unfold SimNode.registerPayment at h
  split at h
  · cases h
  · split at h
    · cases h
    · split at h
      · cases h
        rfl
      · cases h

theorem SendCall.step (h : SendCall env n d p)
    (hs : NetworkStep env.network nodeOf (.send n) shared p es shared' p')
    (hsource : (shared.nodes (nodeOf (.send n))).node.info.pubkey = d.event.source)
    (hroute : ∀ hash route, p'.phase = .sendPayment hash route →
      hash = env.hashes n ∧ ∀ found, route = .ok found → env.Finds d found) :
    SendCall env n d p' := by
  cases hs with
  | send hsends hstep =>
    cases h with
    | refused | unrouted | running => cases hsends
    | findingRoute =>
      cases hstep with
      | routeFound hash route =>
        obtain ⟨rfl, hfound⟩ := hroute hash route rfl
        exact .sendPayment hfound
      | pathfindingFailed message => exact .refused _
    | @sendPayment route hfound =>
      cases hstep
      rcases (shared.nodes (nodeOf (.send n))).node.registerPayment_cases (env.hashes n) route with
        ⟨err, heq⟩ | ⟨-, heq⟩ | ⟨found, path, hpaths, -, heq⟩
      · rw [heq]
        exact .refused err
      · rw [heq]
        exact .unrouted
      · have hroute := SimNode.route_of_dispatching (congrArg (fun x => x.2.2) heq)
        rw [heq]
        exact .dispatching (hfound found hroute) hpaths
    | dispatching hfound hpaths =>
      cases hstep
      obtain ⟨req, hdispatch, hreq, rfl, hhash⟩ := env.network.dispatchPayment_eq
        (shared.nodes (nodeOf (.send n))).node.info.pubkey (env.hashes n) hpaths none
      rw [hdispatch]
      exact .running hfound hpaths (hreq.trans hsource) hhash
  | take hphase => cases h <;> cases hphase
  | outcome hphase => cases h <;> cases hphase
  | pay htask hstep =>
    cases h with
    | refused | unrouted | findingRoute | sendPayment | dispatching => cases htask
    | running hfound hpaths hsource hhash =>
      cases htask
      exact .running hfound hpaths hsource hhash

/-- The receiver of a payment comes into the node's map when the payment is registered. -/
theorem SendCall.receivers_step (h : SendCall env n d p)
    (hs : NetworkStep env.network nodeOf (.send n) shared p es shared' p') :
    (shared'.receivers = shared.receivers ∧ p'.phase.accepted = p.phase.accepted) ∨
    (env.hashes n ∉ (shared.nodes (nodeOf (.send n))).node.inFlight ∧
      p.phase.accepted = false ∧ p'.phase.accepted = true ∧
      shared'.receivers = Function.update shared.receivers (nodeOf (.send n))
        ((shared.receivers (nodeOf (.send n))).insert (env.hashes n) (.send n))) := by
  cases hs with
  | send hsends hstep =>
    cases h with
    | refused | unrouted | running => cases hsends
    | findingRoute =>
      cases hstep with
      | routeFound hash route => exact .inl ⟨rfl, rfl⟩
      | pathfindingFailed message => exact .inl ⟨rfl, rfl⟩
    | @sendPayment route hfound =>
      cases hstep
      rcases (shared.nodes (nodeOf (.send n))).node.registerPayment_cases (env.hashes n) route with
        ⟨err, heq⟩ | ⟨hfresh, heq⟩ | ⟨found, path, hpaths, hfresh, heq⟩
      · rw [heq]
        exact .inl ⟨rfl, rfl⟩
      · rw [heq]
        exact .inr ⟨hfresh, rfl, rfl, rfl⟩
      · rw [heq]
        exact .inr ⟨hfresh, rfl, rfl, rfl⟩
    | dispatching hfound hpaths =>
      cases hstep
      obtain ⟨req, hdispatch, -⟩ := env.network.dispatchPayment_eq
        (shared.nodes (nodeOf (.send n))).node.info.pubkey (env.hashes n) hpaths none
      rw [hdispatch]
      exact .inl ⟨rfl, rfl⟩
  | take hphase => cases h <;> cases hphase
  | outcome hphase => cases h <;> cases hphase
  | pay htask hstep => exact .inl ⟨by simp, rfl⟩

/-- A tracker takes the receiver of its own payment, if that is the one in the map. -/
theorem TrackCall.step (h : TrackCall env n p)
    (hs : NetworkStep env.network nodeOf (.track n) shared p es shared' p')
    (hlisted : ∀ hash, hash ∈ shared.receivers (nodeOf (.track n)) →
      hash ∈ (shared.nodes (nodeOf (.track n))).node.inFlight)
    (hlookup : p.phase = .trackPayment (env.hashes n) →
      (shared.receivers (nodeOf (.track n))).lookup (env.hashes n) = some (.send n)) :
    TrackCall env n p' ∧ p'.phase ≠ .trackPayment (env.hashes n) ∧
    ((shared'.receivers = shared.receivers ∧ p.phase ≠ .trackPayment (env.hashes n)) ∨
      (p.phase = .trackPayment (env.hashes n) ∧
      shared'.receivers = Function.update shared.receivers (nodeOf (.track n))
        ((shared.receivers (nodeOf (.track n))).erase (env.hashes n)))) := by
  cases hs with
  | send hsends hstep => cases h <;> cases hsends
  | pay htask hstep => cases h <;> cases htask
  | outcome hphase hreceiver houtcome sinceEpoch scorer =>
    cases h <;> cases hphase
    exact ⟨.returned, by simp, .inl ⟨rfl, by simp⟩⟩
  | take hphase hstep =>
    cases h <;> cases hphase
    have hreceiver := hlookup rfl
    obtain ⟨inFlight, hinFlight⟩ := Option.isSome_iff_exists.mp (AList.lookup_isSome.mpr
      (hlisted _ (AList.lookup_isSome.mp (Option.isSome_of_eq_some hreceiver))))
    cases hstep
    rw [SimNode.takePayment, hinFlight, hreceiver]
    exact ⟨.tracking, by simp, .inr ⟨rfl, rfl⟩⟩

end Steps

/-! ## The pairs of all payments -/

/-- Each payment's calls belong together. `started` and `kept` carry the argument: who has been asked for a
result has been sent, and until it is asked, its receiver is in the map under its hash. -/
structure Paired (env : Setting) (plan : Nat → Dispatch)
    (shared : NetworkState PublicKey PaymentCall) (proc : PaymentCall → CallState PaymentCall) :
    Prop where
  send : ∀ n, SendCall env n (plan n) (proc (.send n))
  track : ∀ n, TrackCall env n (proc (.track n))
  started : ∀ n, (proc (.track n)).phase ≠ .trackPayment (env.hashes n) →
    (proc (.send n)).phase.accepted = true
  kept : ∀ n, (proc (.send n)).phase.accepted = true →
    (proc (.track n)).phase = .trackPayment (env.hashes n) →
    (shared.receivers (plan n).event.source).lookup (env.hashes n) = some (.send n)

namespace Paired

variable {env : Setting} {plan : Nat → Dispatch}
  {shared shared' : NetworkState PublicKey PaymentCall} {proc : PaymentCall → CallState PaymentCall}
  {p : CallState PaymentCall} {es : List NetworkEvent}
  {n : Nat}

/-- A step of the call that sends payment `n`, or of the payment. -/
theorem send_step (h : Paired env plan shared proc)
    (hcustody : Custody env.info (payer plan) env.call shared proc)
    (hs : NetworkStep env.network (payer plan) (.send n) shared (proc (.send n)) es shared' p)
    (hroute : ∀ hash route, p.phase = .sendPayment hash route →
      hash = env.hashes n ∧ ∀ found, route = .ok found → env.Finds (plan n) found) :
    Paired env plan shared' (Function.update proc (.send n) p) := by
  have hinfo : (shared.nodes (payer plan (.send n))).node.info.pubkey = (plan n).event.source := by
    rw [hcustody.info, env.info_pubkey]
    rfl
  have hreceivers := (h.send n).receivers_step hs
  have hother : ∀ m, Function.update proc (.send n) p (.track m) = proc (.track m) := fun m =>
    Function.update_of_ne (by simp) _ _
  constructor
  · intro m
    by_cases hm : m = n
    · subst hm
      simp only [Function.update_self]
      exact (h.send m).step hs hinfo hroute
    · rw [Function.update_of_ne (by simpa using hm)]
      exact h.send m
  · intro m
    rw [hother]
    exact h.track m
  · intro m hstarted
    rw [hother] at hstarted
    have haccepted := h.started m hstarted
    by_cases hm : m = n
    · subst hm
      rw [Function.update_self]
      rcases hreceivers with ⟨-, hsame⟩ | ⟨-, -, hafter, -⟩
      · exact hsame.trans haccepted
      · exact hafter
    · rwa [Function.update_of_ne (by simpa using hm)]
  · intro m haccepted hwaiting
    rw [hother] at hwaiting
    by_cases hm : m = n
    · subst hm
      rw [Function.update_self] at haccepted
      rcases hreceivers with ⟨hsame, heq⟩ | ⟨-, -, -, hinsert⟩
      · rw [hsame]
        exact h.kept m (heq.symm.trans haccepted) hwaiting
      · show (shared'.receivers (payer plan (.send m))).lookup _ = _
        rw [hinsert, Function.update_self, AList.lookup_insert]
    · rw [Function.update_of_ne (by simpa using hm)] at haccepted
      have hlookup := h.kept m haccepted hwaiting
      rcases hreceivers with ⟨hsame, -⟩ | ⟨hfresh, -, -, hinsert⟩
      · rwa [hsame]
      · rw [hinsert]
        by_cases hnode : (plan m).event.source = payer plan (.send n)
        · -- the hash of a payment that waits for its tracker is refused
          rw [hnode] at hlookup ⊢
          have hne : env.hashes m ≠ env.hashes n := fun heq =>
            hfresh (hcustody.listed _ _ (heq ▸ AList.lookup_isSome.mp (Option.isSome_of_eq_some hlookup)))
          rwa [Function.update_self, AList.lookup_insert_ne hne]
        · rwa [Function.update_of_ne hnode]

/-- A step of the call that asks for the result of payment `n`. -/
theorem track_step (h : Paired env plan shared proc)
    (hcustody : Custody env.info (payer plan) env.call shared proc)
    (hs : NetworkStep env.network (payer plan) (.track n) shared (proc (.track n)) es shared' p)
    (hsent : (proc (.send n)).phase.accepted = true) :
    Paired env plan shared' (Function.update proc (.track n) p) := by
  obtain ⟨htrack, hstarted, hreceivers⟩ := (h.track n).step hs (hcustody.listed _) (h.kept n hsent)
  have hother : ∀ m, Function.update proc (.track n) p (.send m) = proc (.send m) := fun m =>
    Function.update_of_ne (by simp) _ _
  constructor
  · intro m
    rw [hother]
    exact h.send m
  · intro m
    by_cases hm : m = n
    · subst hm
      rwa [Function.update_self]
    · rw [Function.update_of_ne (by simpa using hm)]
      exact h.track m
  · intro m hstarted'
    rw [hother]
    by_cases hm : m = n
    · rwa [hm]
    · rw [Function.update_of_ne (by simpa using hm)] at hstarted'
      exact h.started m hstarted'
  · intro m haccepted hwaiting
    rw [hother] at haccepted
    by_cases hm : m = n
    · subst hm
      rw [Function.update_self] at hwaiting
      exact absurd hwaiting hstarted
    · rw [Function.update_of_ne (by simpa using hm)] at hwaiting
      have hlookup := h.kept m haccepted hwaiting
      rcases hreceivers with ⟨hsame, -⟩ | ⟨hphase, herase⟩
      · rwa [hsame]
      · rw [herase]
        by_cases hnode : (plan m).event.source = payer plan (.track n)
        · -- what the tracker takes is its own receiver, so it is of another hash
          have hown := h.kept n hsent hphase
          have hne : env.hashes m ≠ env.hashes n := by
            intro heq
            rw [heq, hnode] at hlookup
            exact hm (PaymentCall.send.inj (Option.some.inj (hlookup.symm.trans hown)))
          rw [hnode] at hlookup ⊢
          rwa [Function.update_self, AList.lookup_erase_ne hne]
        · rwa [Function.update_of_ne hnode]

end Paired

/-! ## Whole runs -/

section Runs

variable {γ : Type} {env : Setting} {s : Simulated γ} {trace : List SimulatedEvent}
  {plan : Nat → Dispatch} {tasks : Producer γ} {now : SystemTime} {writeResults : Option UInt32}
  {timeout : Bool}

theorem Custody.interrupt {ν κ : Type} [DecidableEq ν] [DecidableEq κ] {infos : ν → NodeInfo}
    {nodeOf : κ → ν} {calls : κ → Call} {shared : NetworkState ν κ} {proc : κ → CallState κ}
    (h : Custody infos nodeOf calls shared proc) (interrupted : Bool) :
    Custody infos nodeOf calls (shared.interrupt interrupted) proc := by
  obtain ⟨hinfo, hfresh, htasked, hasked, hwaiting, hreturned, hentry, hlisted, htracker, honce,
    htaken⟩ := h
  exact ⟨hinfo, hfresh, htasked, hasked, hwaiting, hreturned, hentry, hlisted, htracker, honce, htaken⟩

theorem SimulatedRun.custody
    (h : SimulatedRun env (.start env tasks now writeResults timeout) trace s)
    (hplan : Planned plan s) :
    Custody env.info (payer plan) env.call s.network.shared s.network.proc := by
  rcases SimulatedRun.network_run h hplan with hrun | ⟨-, heq⟩
  · exact run_custody hrun
  · rw [heq]
    exact (run_custody .refl).interrupt true

theorem NetworkStep.returned {ν κ : Type} [DecidableEq ν] [DecidableEq κ] {network : SimGraph}
    {nodeOf : κ → ν} {k : κ} {shared shared' : NetworkState ν κ} {p p' : CallState κ}
    {es : List NetworkEvent} (hs : NetworkStep network nodeOf k shared p es shared' p')
    {result : CallResult} (h : p.phase = .returned result) : p'.phase = .returned result := by
  cases hs with
  | send hsends =>
    rw [h] at hsends
    cases hsends
  | take hphase => cases h.symm.trans hphase
  | outcome hphase => cases h.symm.trans hphase
  | pay => exact h

/-- What a task has been told is what its call has returned. -/
theorem SimulatedRun.answered {start : Simulated γ} (h : SimulatedRun env start trace s) :
    (∀ n outcome, .task (.sent n outcome) ∈ trace →
      (s.network.proc (.send n)).phase = .returned (.sent outcome)) ∧
    ∀ n outcome, .task (.tracked n outcome) ∈ trace →
      (s.network.proc (.track n)).phase = .returned (.tracked outcome) := by
  refine h.invariant (I := fun trace s =>
    (∀ n outcome, .task (.sent n outcome) ∈ trace →
      (s.network.proc (.send n)).phase = .returned (.sent outcome)) ∧
    ∀ n outcome, .task (.tracked n outcome) ∈ trace →
      (s.network.proc (.track n)).phase = .returned (.tracked outcome)) ⟨by simp, by simp⟩ ?_
  rintro trace s label s' ⟨hsent, htracked⟩ hstep
  rcases hstep.task_or_call with ⟨e, tasks, rfl, -, hanswered, rfl⟩
    | ⟨k, es, shared, p, nodeOf, rfl, hs, rfl⟩
  · constructor
    · intro n outcome hmem
      rcases List.mem_append.mp hmem with hmem | hmem
      · exact hsent n outcome hmem
      · exact hanswered.sent n outcome (SimulatedEvent.task.inj (List.mem_singleton.mp hmem)).symm
    · intro n outcome hmem
      rcases List.mem_append.mp hmem with hmem | hmem
      · exact htracked n outcome hmem
      · exact hanswered.tracked n outcome (SimulatedEvent.task.inj (List.mem_singleton.mp hmem)).symm
  · have hstays : ∀ j result, (s.network.proc j).phase = .returned result →
        ((s.progress k shared p).network.proc j).phase = .returned result := by
      intro j result hreturned
      show (Function.update s.network.proc k p j).phase = _
      by_cases hj : j = k
      · subst hj
        rw [Function.update_self]
        exact hs.returned hreturned
      · rwa [Function.update_of_ne hj]
    exact ⟨fun n outcome hmem => hstays _ _ (hsent n outcome (by simpa using hmem)),
      fun n outcome hmem => hstays _ _ (htracked n outcome (by simpa using hmem))⟩

/-- **Each payment is told its own result.** -/
theorem SimulatedRun.paired
    (h : SimulatedRun env (.start env tasks now writeResults timeout) trace s)
    (hplan : Planned plan s) : Paired env plan s.network.shared s.network.proc := by
  induction h with
  | refl =>
    exact ⟨fun n => .findingRoute, fun n => .waiting, fun n hstarted => absurd rfl hstarted,
      fun n haccepted => (by cases haccepted)⟩
  | @tail trace s s' label hrun hstep ih =>
    have hplan' := hplan.of_step hstep
    have hpaired := ih hplan'
    have hcustody := SimulatedRun.custody hrun hplan'
    obtain ⟨⟨steps, htasks, hsteps⟩, -⟩ := SimulatedRun.tasks_run hrun rfl
    have htraced := run_traced htasks
    cases hstep with
    | task => exact ⟨hpaired.send, hpaired.track, hpaired.started, hpaired.kept⟩
    | @send n node dispatch es shared p hcalling hs hroute =>
      obtain ⟨hd, hnode⟩ := htraced.node_of_calling env.keys hcalling
      obtain rfl := hplan' n _ hd
      exact hpaired.send_step hcustody (hs.of_nodeOf hnode.symm) hroute
    | @track n payment es shared p htracking hhash hs =>
      obtain ⟨d, hash, hd, hsource, -, hsent⟩ := htraced.node_of_tracking env.keys htracking
      obtain rfl := hplan' n _ hd
      refine hpaired.track_step hcustody (hs.of_nodeOf hsource.symm) ?_
      rw [(SimulatedRun.answered hrun).1 n _ ((hsteps _ (by simp)).mp hsent)]
      rfl
    | @pay k req phase phase' es channels htask hs =>
      cases k with
      | track n =>
        have htrack := hpaired.track n
        generalize s.network.proc (.track n) = p at htask htrack
        cases htrack <;> cases htask
      | send n =>
        refine hpaired.send_step hcustody (.pay htask hs) fun hash route hphase => ?_
        have hsend := hpaired.send n
        generalize s.network.proc (.send n) = p at htask hsend hphase
        cases hsend with
        | running => cases hphase
        | _ => cases htask

end Runs

end SimLn
