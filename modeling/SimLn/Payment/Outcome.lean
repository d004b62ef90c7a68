import SimLn.Payment.Ledger
import SimLn.Payment.Resolutions

/-!
# SimLn — what a reported outcome says of the channels

`propagate_payment` chooses its result once the HTLCs have been added, and reports it even if a
critical error stops it from removing them all. What has been removed was then settled as the
result says; what has not is still in flight, and the shutdown has been triggered
(`outcome_faithful`).
-/

namespace SimLn

open Lib

/-! ## Critical errors trigger the shutdown -/

/-- If a critical error has occurred, the shutdown has been triggered. -/
def Triggered (past : List Event) : Prop := HasCritical past → .shutdownTriggered ∈ past

theorem Step.triggered {req : PropagatePaymentRequest} {channels channels' : Channels}
    {phase phase' : Phase} {es : List Event} (h : Step req channels phase es channels' phase') :
    Triggered es := by
  intro hcritical
  cases h.transition with
  | addCritical | forwardCritical | interceptCritical | removeCritical | removedInsane
  | notifyCritical => simp
  | addRefusedFirst | addRefused | forwardRefused | added | interceptRefusedFirst
  | interceptRefused | forwarded | received | removed | notified | removeNext | removedAll =>
    -- none of these events is critical
    exact absurd hcritical (by simp [HasCritical, Event.isCritical])

section Runs

variable {ι : Type} [DecidableEq ι] {reqs : ι → PropagatePaymentRequest} {channels : Channels}
  {w : World ι Channels Phase} {trace : List (ι × Event)} {k : ι} {result : PaymentResult}

theorem run_triggered (h : PaymentRun reqs channels trace w) (k : ι) :
    Triggered (eventsOf k trace) := by
  have hinv := h.local_invariant (I := fun _ past _ => Triggered past)
    (fun _ ⟨_, he, _⟩ => absurd he (by simp)) fun _ _ _ es _ _ past hs ih ⟨e, he, hcritical⟩ => by
      rcases List.mem_append.mp he with he | he
      · exact List.mem_append_left _ (ih ⟨e, he, hcritical⟩)
      · exact List.mem_append_right _ (Step.triggered hs ⟨e, he, hcritical⟩)
  exact hinv k

/-! ## The outcome and the channels -/

/-- What the log of payment `k` and the channels have to do with the result that it reports. -/
structure FaithfulOutcome (reqs : ι → PropagatePaymentRequest) (channels : Channels)
    (trace : List (ι × Event)) (shared : Channels) (k : ι) (result : PaymentResult) : Prop where
  /-- A success has added the HTLCs of all hops. -/
  complete : result.paymentOutcome = .success →
    (added (eventsOf k trace)).length = (reqs k).route.hops.length
  /-- The HTLCs removed are the last that were added, last first. -/
  backwards : (removed (eventsOf k trace)).map Prod.fst
    = (added (eventsOf k trace)).reverse.take (removed (eventsOf k trace)).length
  /-- They went to their receivers after a success, and back to their senders otherwise. -/
  settled : ∀ x ∈ removed (eventsOf k trace), x.2 = decide (result.paymentOutcome = .success)
  /-- Nothing but a critical error leaves any behind, and it triggers the shutdown. -/
  stopped : (removed (eventsOf k trace)).length = (added (eventsOf k trace)).length ∨
    (k, .shutdownTriggered) ∈ trace ∧ ∃ e, (k, e) ∈ trace ∧ e.isCritical = true
  /-- Those left behind are in flight where they were added. -/
  left : ∀ x ∈ held (eventsOf k trace), ∃ p, x.place channels = some p ∧
    entryAt shared p (reqs k).paymentHash = some (x.htlc, x.ref.index)

theorem run_faithful (h : PaymentRun reqs channels trace w)
    (hfinished : w.proc k = .finished result) :
    FaithfulOutcome reqs channels trace w.shared k result := by
  have hcontrol := run_control h k
  rw [hfinished] at hcontrol
  have hreported : Reported (reqs k) (eventsOf k trace) result := hcontrol.phase
  refine ⟨fun hsuccess => ?_, run_removed_eq h k, hreported.settled.1,
    hreported.settled.2.imp_right fun hcritical => ⟨?_, ?_⟩, (run_holding h).inFlight k⟩
  · cases hreported with
    | success hadded _ _ _ => exact hadded
    | unknown _ _ _ => cases hsuccess
    | failure _ _ => cases hsuccess
  · exact mem_eventsOf.mp (run_triggered h k hcritical)
  · obtain ⟨e, he, hcritical⟩ := hcritical
    exact ⟨e, mem_eventsOf.mp he, hcritical⟩

/-- An HTLC that was removed is of a later hop than those still held. -/
theorem not_held_of_removed {req : PropagatePaymentRequest} {past : List Event} (hlog : Log req past)
    {x : HopHtlc} {success : Bool} (hx : (x, success) ∈ removed past) : x ∉ held past := by
  intro hheld
  obtain ⟨j, hj⟩ := List.mem_iff_getElem?.mp hx
  obtain ⟨i, hi, hon⟩ := hlog.removedAt j x success hj
  have hlt := hlog.hop_lt_of_held hheld
  have hjlt := (List.getElem?_eq_some_iff.mp hj).1
  rw [held, List.length_take, hon.hop] at hlt
  omega

/-- Under distinct hashes, an HTLC that was removed is nowhere to be found. -/
theorem Owned.entry_removed {shared : Channels} {req : PropagatePaymentRequest}
    {past : List Event} {phase : Phase} (h : Owned channels req shared past phase) {x : HopHtlc}
    {success : Bool} (hx : (x, success) ∈ removed past) {p : Place}
    (hp : x.place channels = some p) : entryAt shared p req.paymentHash = none := by
  by_contra hne
  obtain ⟨e, he⟩ := Option.ne_none_iff_exists'.mp hne
  obtain ⟨y, hy, hplace, -⟩ := h.held_of_entry he
  have hxy : x = y := List.inj_on_of_nodup_map h.distinct (h.removes x success hx) (mem_held hy)
    (hp.trans hplace.symm)
  exact not_held_of_removed h.control.log hx (hxy ▸ hy)

/-- **The outcome is faithful, up to a critical error.** When a payment has reported its result, what
it has removed was settled as the result says, and what it has not removed is in flight still, which
only a critical error brings about. Every balance is its initial value plus the credits and debits
of the payments' logs; those of a payment that has removed everything are the amounts of its hops if
it succeeded, and none if it failed. With distinct hashes, no channel holds an HTLC that was
removed. -/
theorem outcome_faithful [Fintype ι] {R : Type} [AddCommGroup R] (V : Reading R)
    (h : PaymentRun reqs channels trace w) (hfinished : w.proc k = .finished result) :
    FaithfulOutcome reqs channels trace w.shared k result ∧
      (∀ scid c₀ c s, channels.lookup scid = some c₀ → w.shared.lookup scid = some c →
        V.Fits c₀ → V.val (c.node s).localBalanceMsat = V.val (c₀.node s).localBalanceMsat
          + ∑ j, flow V channels (scid, s) (eventsOf j trace)) ∧
      ((removed (eventsOf k trace)).length = (added (eventsOf k trace)).length →
        ∀ p, flow V channels p (eventsOf k trace) =
          if result.paymentOutcome = .success then
            received V channels p (reqs k) - sent V channels p (reqs k)
          else 0) ∧
      (HashesFree reqs channels → (Function.Injective fun j => (reqs j).paymentHash) →
        ∀ x success, (x, success) ∈ removed (eventsOf k trace) → ∀ p, x.place channels = some p →
          entryAt w.shared p (reqs k).paymentHash = none) := by
  have hcontrol := run_control h k
  rw [hfinished] at hcontrol
  have hreported : Reported (reqs k) (eventsOf k trace) result := hcontrol.phase
  refine ⟨run_faithful h hfinished, fun scid c₀ c s hc₀ hc hfit => run_balance h hc₀ hc hfit s,
    fun hall p => ?_, fun hfree hdistinct x success hx p hp => ?_⟩
  · have hrev := run_removed_eq h k
    rw [hall, List.take_of_length_le (by simp)] at hrev
    have hflow : flow V channels p _ = _ := hreported.flow_eq hcontrol.log hrev p
    simpa [Phase.succeeded] using hflow
  · exact (run_owned hfree hdistinct h k).entry_removed hx hp

theorem outcome_faithful_mixedPayments :
    ∃ trace w, PaymentRun mixedPayments threeNodes trace w ∧
      (added (eventsOf true trace)).length = (mixedPayments true).route.hops.length := by
  obtain ⟨w, hrun, htrue, -⟩ := mixedPayments_run
  exact ⟨_, w, hrun, (outcome_faithful .exact hrun htrue).1.complete rfl⟩

/-- The watcher fails when it is told that Carol's HTLC has been settled. The payment is a success,
with Alice's HTLC to Bob still in flight. -/
theorem watchedPayment_left_behind :
    ∃ trace w, PaymentRun (fun _ : Unit => watchedPayment) threeNodes trace w ∧
      w.proc () = .finished ⟨1, .success⟩ ∧
      entryAt w.shared (⟨700⟩, .one) watchedPayment.paymentHash = some (⟨20030, 58⟩, 0) := by
  have h1 : PaymentRun (fun _ : Unit => watchedPayment) threeNodes _ _ :=
    PaymentRun.step .refl () (.add rfl)
  have h2 := h1.step () (.intercept [.ok (.ok (.ok ∅))] none rfl rfl)
  have h3 := h2.step () (.add rfl)
  have h4 := h3.step () (.intercept [.ok (.ok (.ok ∅))] none rfl rfl)
  have h5 := h4.step () (.remove rfl)
  exact ⟨_, _, h5.step () (.notify (.error (.interceptorError "down")) Nat.one_pos), rfl, rfl⟩

end Runs

end SimLn
