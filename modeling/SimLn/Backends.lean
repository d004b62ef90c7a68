import SimLn.Lib.Interleaving
import SimLn.Types

/-!
# SimLn — tracking payments on real nodes

The implementations of `LightningNode` for real nodes follow a payment in one of two ways, both with a
`select!` that is biased towards the shutdown listener. CLN, Eclair and ldk-server are polled: the call
sleeps, asks, and sleeps again while the payment is pending. LND answers on a stream. The client is
behind a lock, except for ldk-server. A polling call takes it for one question at a time; a call to LND
takes it before it opens the stream and keeps it until it returns.

`Tracking` is what tells the implementations apart, and `ClientStep` a step of a call on one node, in any
number of concurrent calls. As in the pipeline, the biased `select!` is two steps. What the remote node
answers is up to the environment, as is what becomes of `send_payment`, which keeps the client's lock
until it returns. The numbers of the remote enumerations are those of generated code outside the
repository, so the functions that read them are parameters.

The client is with one call at a time (`client_owner`). What tracking returns is what the node has said
(`client_follows`), and once the signal has been raised all calls return (`clients_return`).
-/

namespace SimLn

open Lib

/-! ## What a node's answer means -/

/-- What an implementation makes of an answer: none while the payment is under way. -/
abbrev TrackAnswer := Except LightningError (Option PaymentResult)

/-- How an implementation tracks payments: whether its client is behind a lock, whether it follows the
payment on a stream, for which it keeps the lock, and what it makes of an answer. The first message of a
stream ends the call. -/
structure Tracking (ρ : Type) where
  locked : Bool
  streams : Bool
  answer : ρ → TrackAnswer
  locked_of_streams : streams = true → locked = true
  ends_of_streams : streams = true → ∀ r, answer r ≠ .ok none

namespace Lnd

inductive PaymentStatus where
  | succeeded
  | failed
  /-- In flight or unknown. -/
  | other
  deriving DecidableEq

inductive PaymentFailureReason where
  | timeout
  | noRoute
  | error
  | incorrectPaymentDetails
  | insufficientBalance
  | other
  deriving DecidableEq

structure Payment where
  status : Int32
  failureReason : Int32
  /-- `htlcs.len()`. -/
  htlcs : Nat

/-- The outcome of a payment that has failed. -/
def failureOutcome : PaymentFailureReason → Except LightningError PaymentOutcome
  | .timeout => .ok .paymentExpired
  | .noRoute => .ok .routeNotFound
  | .error => .ok .unexpectedError
  | .incorrectPaymentDetails => .ok .incorrectPaymentDetails
  | .insufficientBalance => .ok .insufficientBalance
  | .other => .error (.trackPaymentError "Unexpected failure reason")

/-- The first message of the stream, none if it is closed. The failure reason is read whatever the
status is. -/
def answer (statusOf : Int32 → Option PaymentStatus) (reasonOf : Int32 → Option PaymentFailureReason)
    (payment : Option Payment) : Except LightningError PaymentResult :=
  match payment with
  | none => .error (.trackPaymentError "No payment")
  | some payment =>
    match statusOf payment.status with
    | none => .error (.trackPaymentError "Invalid payment status")
    | some status =>
      match reasonOf payment.failureReason with
      | none => .error (.trackPaymentError "Invalid failure reason")
      | some reason =>
        match status with
        | .succeeded => .ok ⟨payment.htlcs, .success⟩
        | .failed => (failureOutcome reason).map (PaymentResult.mk payment.htlcs)
        | .other => .ok ⟨payment.htlcs, .unknown⟩

def tracking (statusOf : Int32 → Option PaymentStatus)
    (reasonOf : Int32 → Option PaymentFailureReason) : Tracking (Option Payment) where
  locked := true
  streams := true
  answer payment := (answer statusOf reasonOf payment).map some
  locked_of_streams _ := rfl
  ends_of_streams _ payment := by
    cases answer statusOf reasonOf payment <;> nofun

end Lnd

namespace Cln

inductive ListpaysPaysStatus where
  | pending
  | complete
  | failed
  deriving DecidableEq

structure ListpaysPays where
  status : Int32
  numberOfParts : Option UInt64

/-- The payments that `list_pays` returns for the hash, of which only the first is looked at. -/
def answer (statusOf : Int32 → Option ListpaysPaysStatus) (pays : List ListpaysPays) : TrackAnswer :=
  match pays with
  | [] => .ok none
  | pay :: _ =>
    -- the number of parts fits into a `usize`
    let htlcCount := (pay.numberOfParts.getD 1).toNat
    match statusOf pay.status with
    | none => .error (.trackPaymentError "Invalid payment status")
    | some .pending => .ok none
    | some .complete => .ok (some ⟨htlcCount, .success⟩)
    | some .failed => .ok (some ⟨htlcCount, .unexpectedError⟩)

def tracking (statusOf : Int32 → Option ListpaysPaysStatus) : Tracking (List ListpaysPays) where
  locked := true
  streams := false
  answer := answer statusOf
  locked_of_streams := nofun
  ends_of_streams := nofun

end Cln

namespace Eclair

inductive PaymentStatus where
  | pending
  | failed
  | sent
  deriving DecidableEq

/-- The parts that `getsentinfo` returns. The first decides, but all are counted. -/
def answer (paymentParts : List PaymentStatus) : TrackAnswer :=
  match paymentParts with
  | [] => .ok none
  | .pending :: _ => .ok none
  | .sent :: _ => .ok (some ⟨paymentParts.length, .success⟩)
  | .failed :: _ => .ok (some ⟨paymentParts.length, .unexpectedError⟩)

def tracking : Tracking (List PaymentStatus) where
  locked := true
  streams := false
  answer := answer
  locked_of_streams := nofun
  ends_of_streams := nofun

end Eclair

namespace LdkServer

inductive PaymentStatus where
  | pending
  | succeeded
  | failed
  deriving DecidableEq

/-- The status of the payment, none if the node does not know it. The HTLCs of a payment are not
reported, which counts as one. -/
def answer (statusOf : Int32 → Option PaymentStatus) (payment : Option Int32) : TrackAnswer :=
  match payment with
  | none => .ok none
  | some status =>
    match statusOf status with
    | none => .error (.trackPaymentError "Invalid payment status")
    | some .pending => .ok none
    | some .succeeded => .ok (some ⟨1, .success⟩)
    | some .failed => .ok (some ⟨1, .unexpectedError⟩)

def tracking (statusOf : Int32 → Option PaymentStatus) : Tracking (Option Int32) where
  locked := false
  streams := false
  answer := answer statusOf
  locked_of_streams := nofun
  ends_of_streams := nofun

end LdkServer

/-! ## The four implementations -/

/-- How the numbers of the remote enumerations are read. -/
structure RemoteEnums where
  lndStatus : Int32 → Option Lnd.PaymentStatus
  lndFailureReason : Int32 → Option Lnd.PaymentFailureReason
  clnStatus : Int32 → Option Cln.ListpaysPaysStatus
  ldkServerStatus : Int32 → Option LdkServer.PaymentStatus

inductive Backend where
  | lnd
  | cln
  | eclair
  | ldkServer
  deriving DecidableEq

/-- What a remote node answers when it is asked about a payment. -/
def Backend.Response : Backend → Type
  | .lnd => Option Lnd.Payment
  | .cln => List Cln.ListpaysPays
  | .eclair => List Eclair.PaymentStatus
  | .ldkServer => Option Int32

def Backend.tracking (enums : RemoteEnums) : (backend : Backend) → Tracking backend.Response
  | .lnd => Lnd.tracking enums.lndStatus enums.lndFailureReason
  | .cln => Cln.tracking enums.clnStatus
  | .eclair => Eclair.tracking
  | .ldkServer => LdkServer.tracking enums.ldkServerStatus

/-! ## The calls -/

/-- A request that fails is an error of the call, whatever the node. -/
def Tracking.settle {ρ : Type} (impl : Tracking ρ) (response : Except String ρ) : TrackAnswer :=
  match response with
  | .error message => .error (.trackPaymentError message)
  | .ok r => impl.answer r

def shutdownBeforeTracking : LightningError :=
  .trackPaymentError "Shutdown before tracking results"

/-- A call made on a node. -/
inductive ClientCall where
  | sendPayment
  | trackPayment

inductive ClientPhase where
  /-- `send_payment`, before it has the client. -/
  | sending
  | sendRequested
  /-- `track_payment` on a stream, before it has the client. -/
  | opening
  | opened
  /-- `track_payment`, at its select. -/
  | waiting
  | polled
  /-- The sleep is over, and the node is to be asked. -/
  | elapsed
  | requested
  | sent (outcome : Except LightningError PaymentHash)
  | tracked (outcome : Except LightningError PaymentResult)

inductive ClientEvent (ρ : Type) where
  | shutdown
  /-- The stream has been opened. -/
  | opened (response : Except String Unit)
  | answered (response : Except String ρ)

/-- The lock of the client, and the shutdown signal. -/
structure Client (κ : Type) where
  owner : Option κ
  shutdown : Bool

section Steps

variable {ρ κ : Type}

namespace Tracking

def Free (impl : Tracking ρ) (s : Client κ) : Prop := impl.locked = true → s.owner = none

/-- Call `k` has the client for itself. -/
def take (impl : Tracking ρ) (k : κ) (s : Client κ) : Client κ :=
  { s with owner := if impl.locked then some k else s.owner }

def release (impl : Tracking ρ) (s : Client κ) : Client κ :=
  { s with owner := if impl.locked then none else s.owner }

/-- The shutdown ends a call at its select, where it has the lock only for a stream. -/
def leave (impl : Tracking ρ) (s : Client κ) : Client κ :=
  { s with owner := if impl.streams then none else s.owner }

def start (impl : Tracking ρ) : ClientCall → ClientPhase
  | .sendPayment => .sending
  | .trackPayment => if impl.streams then .opening else .waiting

/-- Where a call goes with an answer. -/
def next (impl : Tracking ρ) (response : Except String ρ) : ClientPhase :=
  match impl.settle response with
  | .error err => .tracked (.error err)
  | .ok (some result) => .tracked (.ok result)
  | .ok none => .waiting

end Tracking

/-- One step of call `k`. The shutdown signal can be raised at any time. -/
inductive ClientStep (impl : Tracking ρ) (k : κ) :
    Client κ → ClientPhase → List (ClientEvent ρ) → Client κ → ClientPhase → Prop where
  | shutdown {s : Client κ} {p : ClientPhase} (hsignal : s.shutdown = false) :
      ClientStep impl k s p [.shutdown] { s with shutdown := true } p
  | send {s : Client κ} (hfree : impl.Free s) :
      ClientStep impl k s .sending [] (impl.take k s) .sendRequested
  | sent {s : Client κ} (outcome : Except LightningError PaymentHash) :
      ClientStep impl k s .sendRequested [] (impl.release s) (.sent outcome)
  | openStream {s : Client κ} (hfree : impl.Free s) :
      ClientStep impl k s .opening [] (impl.take k s) .opened
  | openFailed {s : Client κ} (message : String) :
      ClientStep impl k s .opened [.opened (.error message)] (impl.release s)
        (.tracked (.error (.trackPaymentError message)))
  | streamOpened {s : Client κ} (hstreams : impl.streams = true) :
      ClientStep impl k s .opened [.opened (.ok ())] s .waiting
  | poll {s : Client κ} (hsignal : s.shutdown = false) : ClientStep impl k s .waiting [] s .polled
  | leave {s : Client κ} (hsignal : s.shutdown = true) :
      ClientStep impl k s .waiting [] (impl.leave s) (.tracked (.error shutdownBeforeTracking))
  /-- The sleep is not over yet, or there is no message. -/
  | pending {s : Client κ} : ClientStep impl k s .polled [] s .waiting
  | message {s : Client κ} (hstreams : impl.streams = true) (response : Except String ρ) :
      ClientStep impl k s .polled [.answered response] (impl.release s) (impl.next response)
  | elapse {s : Client κ} (hpolls : impl.streams = false) : ClientStep impl k s .polled [] s .elapsed
  | request {s : Client κ} (hfree : impl.Free s) :
      ClientStep impl k s .elapsed [] (impl.take k s) .requested
  | answer {s : Client κ} (response : Except String ρ) :
      ClientStep impl k s .requested [.answered response] (impl.release s) (impl.next response)

/-- Calls on one node. -/
def clientCalls (κ : Type) (impl : Tracking ρ) : System κ (Client κ) ClientPhase (ClientEvent ρ) where
  step k s p es s' p' := ClientStep impl k s p es s' p'

/-- The calls, made while the client is free and the simulation is running, have taken steps in some
order. -/
abbrev ClientRun [DecidableEq κ] (impl : Tracking ρ) (calls : κ → ClientCall)
    (trace : List (κ × ClientEvent ρ)) (w : World κ (Client κ) ClientPhase) : Prop :=
  (clientCalls κ impl).Run ⟨⟨none, false⟩, fun k => impl.start (calls k)⟩ trace w

/-! ## Who has the client -/

/-- The call has the lock of the client in this phase. -/
def ClientPhase.holds (impl : Tracking ρ) : ClientPhase → Bool
  | .sendRequested | .opened | .requested => impl.locked
  | .waiting | .polled => impl.streams
  | _ => false

/-- The call makes a request next, once it has the client. -/
def ClientPhase.wanting : ClientPhase → Bool
  | .sending | .opening | .elapsed => true
  | _ => false

def ClientPhase.returned : ClientPhase → Bool
  | .sent _ | .tracked _ => true
  | _ => false

variable {impl : Tracking ρ} {k : κ} {s s' : Client κ} {p p' : ClientPhase}
  {es : List (ClientEvent ρ)}

/-- An answer leaves the call waiting or ends it, and a stream it ends. -/
theorem Tracking.holds_next (impl : Tracking ρ) (response : Except String ρ) :
    (impl.next response).holds impl = false := by
  unfold Tracking.next
  split
  · rfl
  · rfl
  next hnone =>
    show impl.streams = false
    cases response with
    | error message => cases hnone
    | ok r => exact Bool.eq_false_iff.mpr fun hstreams => impl.ends_of_streams hstreams r hnone

/-- Taking the free client is a move of its lock. -/
theorem Tracking.lockMove_take (hfree : impl.Free s) (hp : p.holds impl = false)
    (hp' : p'.holds impl = impl.locked) :
    LockMove k s.owner (impl.take k s).owner (p.holds impl) (p'.holds impl) := by
  cases hlocked : impl.locked with
  | false => exact .kept (by simp [take, hlocked]) (by rw [hp, hp', hlocked])
  | true => exact .taken (hfree hlocked) (by simp [take, hlocked]) (by rw [hp', hlocked])

/-- Giving the client up is a move of its lock. -/
theorem Tracking.lockMove_release (hp : p.holds impl = impl.locked) (hp' : p'.holds impl = false) :
    LockMove k s.owner (impl.release s).owner (p.holds impl) (p'.holds impl) := by
  cases hlocked : impl.locked with
  | false => exact .kept (by simp [release, hlocked]) (by rw [hp, hp', hlocked])
  | true => exact .released (by rw [hp, hlocked]) (by simp [release, hlocked]) hp'

/-- Every step of a call is a move of the client's lock. -/
theorem ClientStep.lockMove (h : ClientStep impl k s p es s' p') :
    LockMove k s.owner s'.owner (p.holds impl) (p'.holds impl) := by
  cases h with
  | shutdown | poll | pending => exact .kept rfl rfl
  | send hfree | openStream hfree | request hfree => exact Tracking.lockMove_take hfree rfl rfl
  | sent | openFailed => exact Tracking.lockMove_release rfl rfl
  | streamOpened hstreams => exact .kept rfl (hstreams.trans (impl.locked_of_streams hstreams).symm)
  | leave hsignal =>
    cases hstreams : impl.streams with
    | false => exact .kept (by simp [Tracking.leave, hstreams]) hstreams.symm
    | true => exact .released hstreams (by simp [Tracking.leave, hstreams]) rfl
  | message hstreams response =>
    refine Tracking.lockMove_release ?_ (impl.holds_next response)
    exact hstreams.trans (impl.locked_of_streams hstreams).symm
  | elapse hpolls => exact .kept rfl hpolls.symm
  | answer response => exact Tracking.lockMove_release rfl (impl.holds_next response)

/-- **One call at a time.** The client of a node is locked by the call that makes a request, and by one
that follows a stream. -/
theorem client_owner [DecidableEq κ] {calls : κ → ClientCall} {trace : List (κ × ClientEvent ρ)}
    {w : World κ (Client κ) ClientPhase} (h : ClientRun impl calls trace w) (k : κ) :
    w.shared.owner = some k ↔ (w.proc k).holds impl = true := by
  refine h.lock_owner Client.owner (·.holds impl) (fun k => ?_) (fun _ _ _ _ _ _ hs => hs.lockMove) k
  show none = some k ↔ (impl.start (calls k)).holds impl = true
  cases hcall : calls k with
  | sendPayment => simp [Tracking.start, ClientPhase.holds]
  | trackPayment => cases hstreams : impl.streams <;> simp [Tracking.start, ClientPhase.holds, hstreams]

/-! ## What tracking returns -/

/-- The node's answers to the call. -/
def answersOf (past : List (ClientEvent ρ)) : List (Except String ρ) :=
  past.filterMap fun
    | .answered response => some response
    | _ => none

theorem answersOf_append (past es : List (ClientEvent ρ)) :
    answersOf (past ++ es) = answersOf past ++ answersOf es :=
  List.filterMap_append ..

namespace Tracking

/-- Every answer so far has said that the payment is under way. -/
def Pending (impl : Tracking ρ) (responses : List (Except String ρ)) : Prop :=
  ∀ r ∈ responses, impl.settle r = .ok none

/-- `outcome` is what there is to say of the payment: what the last answer means, after others that left
it pending, or that the call has had no such answer. `raised` tells whether the signal has been raised. -/
inductive Tells (impl : Tracking ρ) (raised : Bool) (past : List (ClientEvent ρ)) :
    Except LightningError PaymentResult → Prop where
  | shutdown (hraised : raised = true) (hpending : impl.Pending (answersOf past)) :
      Tells impl raised past (.error shutdownBeforeTracking)
  | unopened {message : String} (h : .opened (.error message) ∈ past) :
      Tells impl raised past (.error (.trackPaymentError message))
  | answered {before : List (Except String ρ)} {response : Except String ρ}
      {outcome : Except LightningError PaymentResult} (h : answersOf past = before ++ [response])
      (hpending : impl.Pending before) (hsettle : impl.settle response = outcome.map some) :
      Tells impl raised past outcome

/-- What the answers so far have to do with the phase of the call. -/
def Follows (impl : Tracking ρ) (raised : Bool) (past : List (ClientEvent ρ)) : ClientPhase → Prop
  | .tracked outcome => impl.Tells raised past outcome
  | _ => impl.Pending (answersOf past)

variable {raised raised' : Bool} {past : List (ClientEvent ρ)}

/-- The signal takes nothing back, whoever raises it. -/
theorem Follows.raise (h : impl.Follows raised past p) (himp : raised = true → raised' = true)
    (es : List (ClientEvent ρ)) (hquiet : answersOf es = []) : impl.Follows raised' (past ++ es) p := by
  have hsame : answersOf (past ++ es) = answersOf past := by
    rw [answersOf_append, hquiet, List.append_nil]
  cases p with
  | tracked outcome =>
    show impl.Tells raised' (past ++ es) outcome
    cases h with
    | shutdown hraised hpending => exact .shutdown (himp hraised) (hsame ▸ hpending)
    | unopened hmem => exact .unopened (List.mem_append_left _ hmem)
    | answered hanswers hpending hsettle => exact .answered (hsame.trans hanswers) hpending hsettle
  | _ =>
    show impl.Pending (answersOf (past ++ es))
    rw [hsame]
    exact h

/-- A response that settles nothing leaves the payment pending. -/
theorem Pending.snoc {responses : List (Except String ρ)} {response : Except String ρ}
    (h : impl.Pending responses) (hresponse : impl.settle response = .ok none) :
    impl.Pending (responses ++ [response]) := by
  intro r hr
  rcases List.mem_append.mp hr with hr | hr
  · exact h r hr
  · rwa [List.mem_singleton.mp hr]

/-- With one more answer the call is told an outcome, or the payment is still pending. -/
theorem Pending.next {response : Except String ρ} (h : impl.Pending (answersOf past)) :
    impl.Follows raised (past ++ [.answered response]) (impl.next response) := by
  have hanswers : answersOf (past ++ [.answered response]) = answersOf past ++ [response] :=
    answersOf_append past [.answered response]
  unfold Tracking.next
  split
  next err hsettle => exact .answered hanswers h hsettle
  next result hsettle => exact .answered hanswers h hsettle
  next hsettle =>
    show impl.Pending (answersOf (past ++ [.answered response]))
    rw [hanswers]
    exact h.snoc hsettle

end Tracking

/-- Each step of a call keeps to what the responses so far have told. -/
theorem ClientStep.follows {past : List (ClientEvent ρ)} (h : ClientStep impl k s p es s' p')
    (hfollows : impl.Follows s.shutdown past p) : impl.Follows s'.shutdown (past ++ es) p' := by
  cases h with
  | shutdown hsignal => exact hfollows.raise (fun _ => rfl) [.shutdown] rfl
  | send | sent | openStream | poll | pending | elapse | request =>
    rw [List.append_nil]
    exact hfollows
  | openFailed message => exact .unopened (by simp)
  | streamOpened hstreams =>
    show impl.Pending (answersOf (past ++ [.opened (.ok ())]))
    rw [answersOf_append]
    exact (List.append_nil (answersOf past)).symm ▸ hfollows
  | leave hsignal =>
    rw [List.append_nil]
    exact .shutdown hsignal hfollows
  | message hstreams response | answer response => exact Tracking.Pending.next hfollows

/-- The signal is never taken back. -/
theorem ClientStep.signal_stays (h : ClientStep impl k s p es s' p') (hsignal : s.shutdown = true) :
    s'.shutdown = true := by
  cases h with
  | shutdown => rfl
  | _ => exact hsignal

/-- **What tracking returns is what the node has said.** In every run of calls on one node: the meaning of
its last answer to the call, or an error after answers that all left the payment pending. -/
theorem client_follows [DecidableEq κ] {calls : κ → ClientCall} {trace : List (κ × ClientEvent ρ)}
    {w : World κ (Client κ) ClientPhase} (h : ClientRun impl calls trace w) {k : κ}
    {outcome : Except LightningError PaymentResult} (hreturned : w.proc k = .tracked outcome) :
    impl.Tells w.shared.shutdown (eventsOf k trace) outcome := by
  have hfollows := h.owned_invariant (I := fun _ s past p => impl.Follows s.shutdown past p)
    (fun k => ?_) (fun _ _ _ _ _ _ _ hs hf => hs.follows hf) (fun _ _ _ _ _ _ _ past _ _ hs hf => ?_) k
  · rw [hreturned] at hfollows
    exact hfollows
  · cases hcall : calls k with
    | sendPayment => simp [Tracking.start, hcall, Tracking.Follows, Tracking.Pending, answersOf]
    | trackPayment =>
      cases hstreams : impl.streams <;>
        simp [Tracking.start, hcall, hstreams, Tracking.Follows, Tracking.Pending, answersOf]
  · have hraised := hf.raise hs.signal_stays [] rfl
    rwa [List.append_nil] at hraised

/-! ## The shutdown -/

/-- The steps that are left of a call once the signal has been raised. A call at its select leaves. -/
def ClientPhase.stepsLeft : ClientPhase → Nat
  | .sent _ | .tracked _ => 0
  | .waiting | .sendRequested => 1
  | .sending | .requested | .opened => 2
  | .elapsed | .opening => 3
  | .polled => 4

/-- After the signal, a step of a call leaves it fewer steps. -/
theorem ClientStep.stepsLeft_lt (h : ClientStep impl k s p es s' p') (hsignal : s.shutdown = true) :
    p'.stepsLeft < p.stepsLeft := by
  have hnext : ∀ response, (impl.next response).stepsLeft < 2 := by
    intro response
    unfold Tracking.next
    split <;> simp [ClientPhase.stepsLeft]
  cases h with
  | shutdown hquiet | poll hquiet => cases hsignal.symm.trans hquiet
  | message hstreams response => exact (hnext response).trans (by decide)
  | answer response => exact hnext response
  | _ => simp [ClientPhase.stepsLeft]

/-- A call that does not wait for the client can go on, and so it can if the client is free. -/
theorem ClientPhase.exists_step (impl : Tracking ρ) (k : κ) (hsignal : s.shutdown = true)
    (hreturned : p.returned = false) (hfree : p.wanting = true → impl.Free s) :
    ∃ es s' p', ClientStep impl k s p es s' p' := by
  cases p with
  | sending => exact ⟨_, _, _, .send (hfree rfl)⟩
  | sendRequested => exact ⟨_, _, _, .sent (.error (.sendPaymentError ""))⟩
  | opening => exact ⟨_, _, _, .openStream (hfree rfl)⟩
  | opened => exact ⟨_, _, _, .openFailed ""⟩
  | waiting => exact ⟨_, _, _, .leave hsignal⟩
  | polled => exact ⟨_, _, _, .pending⟩
  | elapsed => exact ⟨_, _, _, .request (hfree rfl)⟩
  | requested => exact ⟨_, _, _, .answer (.error "")⟩
  | sent | tracked => cases hreturned

/-- **A shutdown ends all calls.** Once the signal has been raised, every call on the node returns,
whatever the other calls are and in whatever order they take their steps, provided that the node answers
what it has been asked. -/
theorem clients_return [DecidableEq κ] [Fintype κ] {calls : κ → ClientCall}
    {trace : List (κ × ClientEvent ρ)} {w : World κ (Client κ) ClientPhase}
    (h : ClientRun impl calls trace w) (hsignal : w.shared.shutdown = true) :
    (clientCalls κ impl).Inevitably (fun w => ∀ k, (w.proc k).returned = true) w := by
  refine System.inevitably_of_measure
    (I := fun w => (∃ trace, ClientRun impl calls trace w) ∧ w.shared.shutdown = true)
    (fun w => ∑ k, (w.proc k).stepsLeft) (fun w hw => ?_) ⟨⟨trace, h⟩, hsignal⟩
  obtain ⟨⟨trace, hrun⟩, hsignal⟩ := hw
  by_cases hdone : ∀ k, (w.proc k).returned = true
  · exact .inl hdone
  refine .inr ⟨?_, fun k es s' p' hs => ⟨⟨⟨_, hrun.tail hs⟩, hs.signal_stays hsignal⟩, ?_⟩⟩
  · obtain ⟨k, hk⟩ := not_forall.mp hdone
    cases howner : w.shared.owner with
    | none => exact ⟨k, ClientPhase.exists_step impl k hsignal (by simpa using hk) fun _ _ => howner⟩
    -- a call that has the client does not wait for it
    | some j =>
      have hholds := (client_owner hrun j).mp howner
      refine ⟨j, ClientPhase.exists_step impl j hsignal ?_ fun hwanting => ?_⟩
      · cases hp : w.proc j <;> simp [hp, ClientPhase.holds, ClientPhase.returned] at hholds ⊢
      · cases hp : w.proc j <;> simp [hp, ClientPhase.holds, ClientPhase.wanting] at hholds hwanting
  · refine sum_measure_lt (fun _ => ClientPhase.stepsLeft) (k := k) ?_
      fun j hj => Function.update_of_ne hj _ _
    show (Function.update w.proc k p' k).stepsLeft < (w.proc k).stepsLeft
    rw [Function.update_self]
    exact hs.stepsLeft_lt hsignal

/-- **Calls on real nodes**, whichever implementation: one call has the client at a time, what tracking
returns is what the node has said, and a shutdown ends every call. -/
theorem backend_calls [DecidableEq κ] [Fintype κ] (enums : RemoteEnums) (backend : Backend)
    {calls : κ → ClientCall} {trace : List (κ × ClientEvent backend.Response)}
    {w : World κ (Client κ) ClientPhase} (h : ClientRun (backend.tracking enums) calls trace w) :
    (∀ k, w.shared.owner = some k ↔ (w.proc k).holds (backend.tracking enums) = true) ∧
    (∀ k outcome, w.proc k = .tracked outcome →
      (backend.tracking enums).Tells w.shared.shutdown (eventsOf k trace) outcome) ∧
    (w.shared.shutdown = true →
      (clientCalls κ (backend.tracking enums)).Inevitably
        (fun w => ∀ k, (w.proc k).returned = true) w) :=
  ⟨client_owner h, fun _ _ hreturned => client_follows h hreturned, clients_return h⟩

end Steps

end SimLn
