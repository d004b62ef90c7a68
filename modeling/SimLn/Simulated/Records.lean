import SimLn.Simulated.Calls
import SimLn.Pipeline.Delivery

/-!
# SimLn — what the records of a simulation say

The record of a payment is true of the network (`records_true`): it says what the payment's own HTLCs have
come to, or that there are none, or that this could not be found out, for a reason that the simulation
itself has.
-/

namespace SimLn

open Lib

/-- Why a node does not say what has become of a payment. -/
inductive TrackFailure (shutdown : Bool) : LightningError → Prop where
  | shutdown (hsignal : shutdown = true) :
      TrackFailure shutdown (.trackPaymentError "shutdown during payment tracking")
  | clock : TrackFailure shutdown .systemTimeConversionError
  | scorer (message : String) :
      TrackFailure shutdown (.trackPaymentError s!"scorer lock poisoned: {message}")

/-- What has become of payment `n`, and what is recorded of it: its hash and its result. -/
inductive Fate {γ : Type} (env : Setting) (trace : List SimulatedEvent) (s : Simulated γ) (n : Nat)
    (d : Dispatch) : Option PaymentHash → PaymentResult → Prop where
  /-- The node has refused to send it. -/
  | refused {e : LightningError}
      (hcall : s.network.proc (.send n) = ⟨.returned (.sent (.error e)), none, none⟩) :
      Fate env trace s n d none .notDispatched
  | unrouted
      (hcall : s.network.proc (.send n) = ⟨.returned (.sent (.ok (env.hashes n))), none, none⟩) :
      Fate env trace s n d (some (env.hashes n)) ⟨0, .routeNotFound⟩
  /-- It has been sent on a route that delivers its amount to its destination, and the result is true of
  its HTLCs. -/
  | finished {req : PropagatePaymentRequest} {result : PaymentResult}
      (htask : (s.network.proc (.send n)).task = some (req, .finished result))
      (hsource : req.source = d.event.source) (hhash : req.paymentHash = env.hashes n)
      (hdestination : req.route.destination = d.event.destination.pubkey)
      (hamount : req.route.finalValueMsat = d.event.amount)
      (hfaithful : FaithfulOutcome (dispatchedRequests req s.network) env.network.channels
        (observed ofPayment (networkEvents trace)) s.network.shared.channels (.send n) result) :
      Fate env trace s n d (some (env.hashes n)) result
  /-- The node has not said. -/
  | untold {e : LightningError}
      (hcall : (s.network.proc (.track n)).phase = .returned (.tracked (.error e)))
      (hfailure : TrackFailure s.tasks.shutdown e) :
      Fate env trace s n d (some (env.hashes n)) .trackPaymentFailed

/-! ## Shutdown while tracking -/

/-- The error of a node whose shutdown listener fires while it tracks a payment. -/
def shutdownError : LightningError := .trackPaymentError "shutdown during payment tracking"

/-- The other errors begin in another way. -/
theorem ne_shutdownError {text : String} (rest : String) (hlen : 2 ≤ text.toList.length)
    (htext : text.toList.take 2 ≠ ['s', 'h']) :
    LightningError.trackPaymentError (text ++ rest) ≠ shutdownError := by
  intro h
  have hchars := congrArg (fun s => s.toList.take 2) (LightningError.trackPaymentError.inj h)
  simp only [String.toList_append, List.take_append_of_le_length hlen] at hchars
  exact htext (hchars.trans (by decide))

theorem notFound_ne_shutdown (hash : PaymentHash) : notFound hash ≠ shutdownError := by
  rw [notFound, String.append_assoc]
  exact ne_shutdownError _ (by decide) (by decide)

/-- A result that has been reported does not become this error. -/
theorem InFlightPayment.tracked_ne_shutdown (self : InFlightPayment) (result : PaymentResult)
    (sinceEpoch : Option Nat) (scorer : Except String Unit) :
    (self.tracked (.result (.ok result)) sinceEpoch scorer).1 ≠ .error shutdownError := by
  intro h
  obtain ⟨path⟩ := self
  cases sinceEpoch with
  | none => cases h
  | some duration =>
    cases path with
    | some path =>
      cases scorer with
      | error message =>
        exact ne_shutdownError message (by decide) (by decide) (Except.error.inj h)
      | ok => cases h
    | none =>
      unfold InFlightPayment.tracked at h
      dsimp only at h
      split_ifs at h
      exact absurd (Except.error.inj h) (by decide)

section Steps

variable {ν κ : Type} [DecidableEq ν] [DecidableEq κ] {network : SimGraph} {nodeOf : κ → ν} {k : κ}
  {shared shared' : NetworkState ν κ} {p p' : CallState κ} {es : List NetworkEvent}

/-- A call returns this error only once the signal has been raised. -/
theorem NetworkStep.raised (hs : NetworkStep network nodeOf k shared p es shared' p')
    (hphase : p'.phase = .returned (.tracked (.error shutdownError))) :
    p.phase = .returned (.tracked (.error shutdownError)) ∨ shared'.triggered = true := by
  rcases hs.phase_cases with ⟨hsame, -⟩ | ⟨-, ⟨hash, route, hroute⟩, -⟩ | ⟨-, hreturned⟩
    | ⟨hash, inFlight, -, -, htracking, -⟩
  · exact .inl (hsame.symm.trans hphase)
  · cases hroute.symm.trans hphase
  · rcases hreturned _ hphase with ⟨htracking, -⟩ | ⟨hash, -, herror⟩
    · cases hs with
      | send hsends =>
        obtain ⟨inFlight, heq⟩ := CallPhase.exists_of_isTracking htracking
        rw [heq] at hsends
        cases hsends
      | take htrack =>
        rw [htrack] at htracking
        cases htracking
      | pay => exact .inl hphase
      | outcome hwaits hreceiver houtcome sinceEpoch scorer =>
        have herror := CallResult.tracked.inj (CallPhase.returned.inj hphase)
        cases houtcome with
        | shutdown htriggered => exact .inr htriggered
        | closed message =>
          have hne : LightningError.trackPaymentError s!"channel receive err: {message}" ≠ shutdownError :=
            ne_shutdownError message (by decide) (by decide)
          exact absurd (Except.error.inj herror) hne
        | result => exact absurd herror (InFlightPayment.tracked_ne_shutdown _ _ _ _)
    · exact absurd (Except.error.inj herror).symm (notFound_ne_shutdown hash)
  · cases htracking.symm.trans hphase

end Steps

section Runs

variable {γ : Type} {env : Setting} {s : Simulated γ} {trace : List SimulatedEvent}
  {tasks : Producer γ} {now : SystemTime} {writeResults : Option UInt32} {timeout : Bool} {n : Nat}

theorem SimulatedRun.raised
    (h : SimulatedRun env (.start env tasks now writeResults timeout) trace s)
    (hphase : (s.network.proc (.track n)).phase = .returned (.tracked (.error shutdownError))) :
    s.network.shared.triggered = true := by
  induction h with
  | refl => cases hphase
  | @tail trace s s' label hrun hstep ih =>
    obtain ⟨-, hsignal⟩ := SimulatedRun.tasks_run hrun rfl
    rcases hstep.task_or_call with ⟨e, tasks, rfl, hs, -, rfl⟩
      | ⟨k, es, shared, p, nodeOf, rfl, hs, rfl⟩
    · exact hs.shutdown_stays (hsignal.symm.trans (ih hphase))
    · change (Function.update s.network.proc k p (.track n)).phase = _ at hphase
      by_cases hk : PaymentCall.track n = k
      · subst hk
        rw [Function.update_self] at hphase
        rcases hs.raised hphase with hbefore | htriggered
        · exact hs.triggered (ih hbefore)
        · exact htriggered
      · rw [Function.update_of_ne hk] at hphase
        exact hs.triggered (ih hphase)

/-! ## The record of a payment -/

variable {plan : Nat → Dispatch}

/-- A payment whose result its node has told. -/
theorem Fate.of_told {hash : PaymentHash} {result : PaymentResult}
    (htold : Told env.network env.info (payer plan) (networkEvents trace) s.network (.track n) hash result
      (.send n)) (hsend : SendCall env n (plan n) (s.network.proc (.send n))) :
    Fate env trace s n (plan n) (some (env.hashes n)) result := by
  obtain ⟨-, ⟨returned, hreturned, haccepted⟩, -, houtcome⟩ := htold
  generalize hp : s.network.proc (.send n) = p at hreturned hsend houtcome
  cases hsend with
  | findingRoute | sendPayment | dispatching => cases hreturned
  | refused e =>
    obtain rfl := CallPhase.returned.inj hreturned
    rcases haccepted with hsent | hrouted
    · cases hsent
    · cases hrouted
  | unrouted =>
    rcases houtcome with ⟨rfl, -⟩ | ⟨req, htask, -⟩
    · exact .unrouted hp
    · cases htask
  | @running route req phase hroute hpaths hsource hhash =>
    rcases houtcome with ⟨-, hnone⟩ | ⟨req', htask, -, -, hfaithful⟩
    · cases hnone
    · cases htask
      obtain ⟨hdestination, hamount⟩ := env.pathfinder.pays hroute req.route (by simp [hpaths])
      exact .finished (by rw [hp]) hsource hhash hdestination hamount hfaithful

/-- A payment that has been sent and tracked is recorded with its own result. -/
theorem SimulatedRun.fate_of_tracked
    (h : SimulatedRun env (.start env tasks now writeResults timeout) trace s)
    (hplan : Planned plan s) {res : Except LightningError PaymentResult}
    (hphase : (s.network.proc (.track n)).phase = .returned (.tracked res)) {payment : Payment}
    (hhash : payment.hash = some (env.hashes n)) :
    Fate env trace s n (plan n) (some (env.hashes n)) (trackPaymentResult payment res) := by
  have hpaired := SimulatedRun.paired h hplan
  have hcustody := SimulatedRun.custody h hplan
  obtain ⟨-, hsignal⟩ := SimulatedRun.tasks_run h rfl
  have hrun : NetworkRun env.network env.info (payer plan) env.call (networkEvents trace) s.network := by
    rcases SimulatedRun.network_run h hplan with hrun | ⟨-, heq⟩
    · exact hrun
    · rw [heq] at hphase
      cases hphase
  have hreceiver : (s.network.proc (.track n)).receiver = some (.send n) := by
    have htrack := hpaired.track n
    generalize s.network.proc (.track n) = p at htrack hphase
    cases htrack with
    | returned => rfl
    | _ => cases hphase
  obtain ⟨hash, inFlight, hcall, hnode, hregistered, htracks⟩ := hcustody.tracker _ _ hreceiver
  rw [hphase] at htracks
  unfold trackPaymentResult
  rw [hhash]
  generalize hcell : s.network.shared.results (.send n) = cell at hregistered htracks
  cases htracks with
  | interrupted => exact .untold hphase (.shutdown (hsignal.symm.trans (SimulatedRun.raised h hphase)))
  | @told result hsent sinceEpoch scorer =>
    rw [hsent] at hregistered
    rcases tracked_result hregistered sinceEpoch scorer with hok | hclock | ⟨message, hscorer⟩
    · rw [hok]
      exact .of_told (told_of_registered hrun hreceiver hnode hregistered) (hpaired.send n)
    · rw [hclock] at hphase ⊢
      exact .untold hphase .clock
    · rw [hscorer] at hphase ⊢
      exact .untold hphase (.scorer message)

/-- **Records are true.** Whatever the tasks, the nodes and the channels do, and whatever hashes are drawn,
the record of a payment names what has been dispatched, and its result is what has become of that payment:
its own HTLCs if it has been sent on a route, one that delivers its amount to its destination. -/
theorem records_true
    (h : SimulatedRun env (.start env tasks now writeResults timeout) trace s) {payment : Payment}
    {result : PaymentResult} (hrecorded : .task (.recorded n (payment, result)) ∈ trace) :
    ∃ d hash, s.tasks.dispatched[n]? = some d ∧
      payment = d.payment (env.info d.event.source) hash ∧ Fate env trace s n d hash result := by
  obtain ⟨⟨steps, htasks, hsteps⟩, -⟩ := SimulatedRun.tasks_run h rfl
  obtain ⟨hanswered, htold⟩ := SimulatedRun.answered h
  have hpaired := SimulatedRun.paired h (planned_plan s)
  have hreports := (run_traced htasks).recorded n payment result ((hsteps _ (by simp)).mpr hrecorded)
  have hinfo : ∀ {d : Dispatch} {node : NodeInfo}, env.nodes.lookup d.event.source = some node →
      env.info d.event.source = node := fun hnode => by rw [Setting.info, hnode]; rfl
  rcases hreports with ⟨d, node, outcome, hd, hnode, hsent, houtput⟩
    | ⟨⟨d, node, outcome, hd, hnode, hsent, houtput⟩, res, htracked, rfl⟩
  · -- the node has refused to send the payment
    have hphase := hanswered n outcome ((hsteps _ (by simp)).mp hsent)
    have hcall := hpaired.send n
    generalize hp : s.network.proc (.send n) = p at hphase hcall
    cases hcall with
    | findingRoute | sendPayment | dispatching => cases hphase
    | unrouted | running =>
      obtain rfl := CallResult.sent.inj (CallPhase.returned.inj hphase)
      cases houtput
    | refused e =>
      obtain rfl := CallResult.sent.inj (CallPhase.returned.inj hphase)
      have hpayment : payment = d.payment node none ∧ result = .notDispatched := by
        cases e with
        | permanentError => cases houtput
        | _ =>
          obtain ⟨rfl, rfl⟩ := SimulationOutput.sendPaymentFailure.inj (Except.ok.inj houtput)
          exact ⟨rfl, rfl⟩
      obtain ⟨rfl, rfl⟩ := hpayment
      exact ⟨d, none, hd, by rw [hinfo hnode], .refused hp⟩
  · have hphase := hanswered n outcome ((hsteps _ (by simp)).mp hsent)
    have hreturned := htold n res ((hsteps _ (by simp)).mp htracked)
    obtain ⟨rfl, hpayment⟩ : outcome = .ok (env.hashes n) ∧
        payment = d.payment node (some (env.hashes n)) := by
      have hcall := hpaired.send n
      generalize s.network.proc (.send n) = p at hphase hcall
      cases hcall with
      | findingRoute | sendPayment | dispatching => cases hphase
      | refused e =>
        obtain rfl := CallResult.sent.inj (CallPhase.returned.inj hphase)
        cases e <;> cases houtput
      | unrouted | running =>
        obtain rfl := CallResult.sent.inj (CallPhase.returned.inj hphase)
        exact ⟨rfl, (SimulationOutput.sendPaymentSuccess.inj (Except.ok.inj houtput)).symm⟩
    have hplan := planned_plan s n d hd
    have hhash : payment.hash = some (env.hashes n) := by rw [hpayment]; rfl
    have hfate := SimulatedRun.fate_of_tracked h (planned_plan s) hreturned hhash
    rw [hplan] at hfate
    exact ⟨d, _, hd, by rw [hinfo hnode, hpayment], hfate⟩

end Runs

/-! ## A payment from Alice to Bob -/

def aliceToBob : Setting where
  clock := .exact
  csv := reliableCsv
  nodes := sampleNodes
  network := threeNodesGraph
  pathfinder :=
    { finds := fun _ destination amount route =>
        route = ⟨[⟨[⟨destination, 700, amount, 18⟩], by simp⟩]⟩
      pays := by
        rintro source destination amount route rfl path hpath
        obtain rfl := List.mem_singleton.mp hpath
        exact ⟨rfl, rfl⟩ }
  hashes _ := ⟨7⟩
  keys key node hnode := by
    rcases Table.lookup_insert_cases hnode with ⟨rfl, rfl⟩ | ⟨-, hnode⟩
    · rfl
    · rcases Table.lookup_insert_cases hnode with ⟨rfl, rfl⟩ | ⟨-, hnode⟩
      · rfl
      · cases hnode

theorem records_true_aliceToBob : ∃ trace s payment,
    SimulatedRun aliceToBob (.start aliceToBob
      (onePayment (MinHeap.empty.push (onePaymentEvent 1)) 0) 0 none false) trace s ∧
    payment.destination = bob ∧ ∃ d hash, s.tasks.dispatched[0]? = some d ∧
      payment = d.payment (aliceToBob.info d.event.source) hash ∧
      Fate aliceToBob trace s 0 d hash ⟨1, .success⟩ := by
  have h : SimulatedRun aliceToBob (.start aliceToBob
      (onePayment (MinHeap.empty.push (onePaymentEvent 1)) 0) 0 none false) _ _ := .refl
  have h := h.tail (.task (.producer (.poll rfl rfl)) ⟨nofun, nofun, nofun⟩)
  have h := h.tail (.task (.producer (.pop rfl rfl)) ⟨nofun, nofun, nofun⟩)
  have h := h.tail (.task (.producer (.pollSleep (congrArg PoppedEvent.phase onePayment_sleeps) rfl))
    ⟨nofun, nofun, nofun⟩)
  have h := h.tail (.task (.producer (.dispatch rfl rfl onePayment_generates rfl rfl))
    ⟨nofun, nofun, nofun⟩)
  -- Alice's node finds a route and hands the payment over to the network
  have h := h.tail (.send (.head _) (.send rfl (.routeFound ⟨7⟩
    (.ok ⟨[⟨[⟨bob, 700, 1000, 18⟩], by simp⟩]⟩))) fun hash route hphase => by
      cases hphase
      exact ⟨rfl, fun found hfound => (Except.ok.inj hfound).symm⟩)
  have h := h.tail (.send (.head _) (.send rfl (.sendPayment rfl)) nofun)
  have h := h.tail (.send (.head _) (.send rfl .dispatch) nofun)
  have h := h.tail (.pay (k := .send 0) rfl (.add rfl))
  have h := h.tail (.pay (k := .send 0) rfl (.intercept [] none rfl rfl))
  have h := h.tail (.pay (k := .send 0) rfl (.remove rfl))
  have h := h.tail (.pay (k := .send 0) rfl (.advance rfl))
  have h := h.tail (.task (.send (@SendStep.sent _ _ [] [] 0 _ _ (.ok ⟨7⟩) _ rfl rfl))
    ⟨fun n outcome he => by cases he; rfl, nofun, nofun⟩)
  have h := h.tail (.task (.send (@SendStep.send _ _ [] [] 0 _ rfl rfl rfl)) ⟨nofun, nofun, nofun⟩)
  have h := h.tail (.task (.resultsProducer (.track rfl rfl (by decide))) ⟨nofun, nofun, nofun⟩)
  -- the node is asked for the result
  have h := h.tail (.track (.head _) rfl (.take rfl (.trackPayment rfl)))
  have h := h.tail (.track (.head _) rfl (.outcome rfl rfl (.result rfl rfl) (some 5) (.ok ())))
  have h := h.tail (.task (.tracker (@TrackerStep.tracked _ _ [] [] 0 _ (.ok ⟨1, .success⟩) rfl))
    ⟨nofun, fun n outcome he => by cases he; rfl, nofun⟩)
  have hreporting : ∀ {n payment} {x : Nat × TrackerPhase}, x.2 ≠ .tracking payment →
      (n, TrackerPhase.tracking payment) ∉ [x] := fun hne hmem =>
    hne (congrArg Prod.snd (List.mem_singleton.mp hmem)).symm
  have h := h.tail (.task (.tracker (@TrackerStep.poll _ _ [] [] 0 _ _ rfl rfl))
    ⟨nofun, nofun, fun _ n payment hmem => absurd hmem (hreporting nofun)⟩)
  have h := h.tail (.task (.tracker (@TrackerStep.send _ _ [] [] 0 _ _ rfl rfl rfl))
    ⟨nofun, nofun, fun _ n payment hmem => absurd hmem (hreporting nofun)⟩)
  have h := h.tail (.task (.consumer (.start rfl rfl)) ⟨nofun, nofun, nofun⟩)
  have h := h.tail (.task (.consumer (.poll rfl rfl)) ⟨nofun, nofun, nofun⟩)
  have h := h.tail (.task (.consumer (.receive rfl rfl)) ⟨nofun, nofun, nofun⟩)
  have h := h.tail (.task (.consumer (.record rfl rfl)) ⟨nofun, nofun, nofun⟩)
  obtain ⟨d, hash, hd, hpayment, hfate⟩ :=
    records_true h (List.mem_append_right _ List.mem_cons_self)
  exact ⟨_, _, _, h, rfl, d, hash, hd, hpayment, hfate⟩

end SimLn
