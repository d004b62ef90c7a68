import SimLn.Payment.Outcome

/-!
# SimLn — every payment comes to an end

A payment adds its HTLCs forwards and removes them backwards, so it can only go on for so long:
`Phase.workLeft` bounds the steps that are left of it, notifications included. No step of another
payment touches that bound, and a payment that has not finished can always take its next step, once
its interceptors have answered. So payments over one network all finish, in whatever order they take
their steps and whatever becomes of the channels (`payments_finish`).
-/

namespace SimLn

open Lib

/-! ## The work that is left -/

/-- The number of steps that are left of a payment at most. Each hop is added in two steps and removed
in two, with a step for each interceptor that is notified. -/
def Phase.workLeft (req : PropagatePaymentRequest) : Phase → Nat
  | .adding loop =>
    (req.interceptors.length + 2) * req.route.hops.length + 2 * (req.route.hops.length - loop.i)
  | .intercepting loop _ =>
    (req.interceptors.length + 2) * req.route.hops.length + 2 * (req.route.hops.length - loop.i) - 1
  | .removing loop => (req.interceptors.length + 2) * (loop.i + 1)
  | .notifying loop _ next =>
    (req.interceptors.length + 2) * loop.i + (req.interceptors.length - next) + 1
  | .finished _ => 0

section Step

variable {req : PropagatePaymentRequest} {channels channels' : Channels} {phase phase' : Phase}
  {past es : List Event}

/-- Removing from any hop of the path takes no longer than removing from the last. -/
theorem workLeft_startRemoving {idx : Nat} (hlt : idx < req.route.hops.length) (success : Bool) :
    (startRemoving idx success).workLeft req
      ≤ (req.interceptors.length + 2) * req.route.hops.length :=
  Nat.mul_le_mul_left _ hlt

theorem Transition.workLeft_adding {loop : AddLoop}
    (h : Transition req channels (.adding loop) es channels' phase')
    (hc : Control req past (.adding loop)) :
    phase'.workLeft req < (Phase.adding loop).workLeft req := by
  obtain ⟨hat, -, -, -, hfail⟩ := hc.phase
  have hlt := hat.lt
  cases h with
  | addCritical | addRefusedFirst | forwardCritical =>
    show 0 < _ * _ + 2 * (_ - loop.i)
    omega
  | @addRefused _ _ _ idx _ _ _ hidx =>
    rw [hidx] at hfail
    have hle : idx < req.route.hops.length := by
      split at hfail
      · cases hfail
      · have := Option.some.inj hfail
        omega
    have hremoving := workLeft_startRemoving hle false
    show (startRemoving idx false).workLeft req < _ * _ + 2 * (_ - loop.i)
    omega
  | forwardRefused =>
    have hremoving := workLeft_startRemoving hlt false
    show (startRemoving loop.i false).workLeft req < _ * _ + 2 * (_ - loop.i)
    omega
  | added =>
    show _ * _ + 2 * (_ - loop.i) - 1 < _ * _ + 2 * (_ - loop.i)
    omega

theorem Transition.workLeft_intercepting {loop : AddLoop} {request : InterceptRequest}
    (h : Transition req channels (.intercepting loop request) es channels' phase')
    (hc : Control req past (.intercepting loop request)) :
    phase'.workLeft req < (Phase.intercepting loop request).workLeft req := by
  obtain ⟨hat, -, -, -, hfail⟩ := hc.phase
  have hlt := hat.lt
  cases h with
  | interceptCritical | interceptRefusedFirst =>
    show 0 < _ * _ + 2 * (_ - loop.i) - 1
    omega
  | @interceptRefused _ _ _ idx _ _ hidx =>
    obtain rfl : loop.i = idx := Option.some.inj (hfail.symm.trans hidx)
    have hremoving := workLeft_startRemoving hlt false
    show (startRemoving loop.i false).workLeft req < _ * _ + 2 * (_ - loop.i) - 1
    omega
  | forwarded hhop hmore =>
    show _ * _ + 2 * (_ - (loop.i + 1)) < _ * _ + 2 * (_ - loop.i) - 1
    omega
  | received hhop hlast =>
    have hremoving := workLeft_startRemoving hlt true
    show (startRemoving loop.i true).workLeft req < _ * _ + 2 * (_ - loop.i) - 1
    omega

theorem Transition.workLeft_removing {loop : RemoveLoop}
    (h : Transition req channels (.removing loop) es channels' phase') :
    phase'.workLeft req < (Phase.removing loop).workLeft req := by
  cases h with
  | removeCritical | removedInsane => exact Nat.mul_pos (Nat.succ_pos _) (Nat.succ_pos _)
  | removed =>
    show (req.interceptors.length + 2) * loop.i + (req.interceptors.length - 0) + 1
      < (req.interceptors.length + 2) * (loop.i + 1)
    rw [Nat.mul_succ]
    omega

theorem Transition.workLeft_notifying {loop : RemoveLoop} {resolution : InterceptResolution}
    {next : Nat} (h : Transition req channels (.notifying loop resolution next) es channels' phase') :
    phase'.workLeft req < (Phase.notifying loop resolution next).workLeft req := by
  cases h with
  | notifyCritical | removedAll => exact Nat.succ_pos _
  | notified hnext =>
    show _ * _ + (_ - (next + 1)) + 1 < _ * _ + (_ - next) + 1
    omega
  | @removeNext _ _ _ i hhop hi =>
    show (req.interceptors.length + 2) * (i + 1)
      < (req.interceptors.length + 2) * loop.i + (req.interceptors.length - _) + 1
    rw [hi]
    omega

/-- **Each step of a payment** is one of finitely many. -/
theorem Step.workLeft_lt (hs : Step req channels phase es channels' phase')
    (hc : Control req past phase) : phase'.workLeft req < phase.workLeft req := by
  cases phase with
  | adding loop => exact hs.transition.workLeft_adding hc
  | intercepting loop request => exact hs.transition.workLeft_intercepting hc
  | removing loop => exact hs.transition.workLeft_removing
  | notifying loop resolution next => exact hs.transition.workLeft_notifying
  | finished result => cases hs

/-! ## The next step -/

/-- `remove_htlcs` has notified no more interceptors than there are. -/
def Phase.NotifiesWithin (req : PropagatePaymentRequest) : Phase → Prop
  | .notifying _ _ next => next ≤ req.interceptors.length
  | _ => True

theorem Step.notifiesWithin (hs : Step req channels phase es channels' phase') :
    phase'.NotifiesWithin req := by
  cases hs.transition with
  | removed => exact Nat.zero_le _
  | notified hnext => exact hnext
  | addCritical | addRefusedFirst | addRefused | forwardCritical | forwardRefused | added
  | interceptCritical | interceptRefusedFirst | interceptRefused | forwarded | received
  | removeCritical | removedInsane | notifyCritical | removeNext | removedAll => exact trivial

/-- A payment can go on until it has finished. Its interceptors answer somehow. -/
theorem Control.exists_step (hc : Control req past phase) (hwithin : phase.NotifiesWithin req)
    (channels : Channels) : (∃ result, phase = .finished result) ∨
      ∃ es channels' phase', Step req channels phase es channels' phase' := by
  cases phase with
  | adding loop =>
    have hlt := hc.phase.1.lt
    exact .inr ⟨_, _, _, .add (List.getElem?_eq_getElem hlt)⟩
  | intercepting loop request =>
    have hlt := hc.phase.1.lt
    exact .inr ⟨_, _, _, .intercept (List.replicate req.interceptors.length (.ok (.ok (.ok ∅)))) none
      (List.getElem?_eq_getElem hlt) List.length_replicate⟩
  | removing loop =>
    have hat : loop.At req past (loop.i + 1) := hc.phase
    exact .inr ⟨_, _, _, .remove (List.getElem?_eq_getElem (hat.le.trans_lt hat.lt))⟩
  | notifying loop resolution next =>
    have hat : loop.At req past loop.i := hc.phase
    rcases Nat.lt_or_eq_of_le hwithin with hnext | rfl
    · exact .inr ⟨_, _, _, .notify (.ok ()) hnext⟩
    · exact .inr ⟨_, _, _, .advance (List.getElem?_eq_getElem (hat.le.trans_lt hat.lt))⟩
  | finished result => exact .inl ⟨result, rfl⟩

end Step

/-! ## Runs -/

section Runs

variable {ι : Type} [DecidableEq ι] {reqs : ι → PropagatePaymentRequest} {channels : Channels}
  {w : World ι Channels Phase} {trace : List (ι × Event)}

theorem run_notifiesWithin (h : PaymentRun reqs channels trace w) (k : ι) :
    (w.proc k).NotifiesWithin (reqs k) :=
  h.local_invariant (I := fun k _ phase => phase.NotifiesWithin (reqs k)) (fun _ => trivial)
    (fun _ _ _ _ _ _ _ hs _ => Step.notifiesWithin hs) k

/-- The payments have taken steps in some order and arrived at `w`. -/
def Reached (reqs : ι → PropagatePaymentRequest) (channels : Channels)
    (w : World ι Channels Phase) : Prop :=
  ∃ trace, PaymentRun reqs channels trace w

/-- The rule for what payments inevitably come to: whatever can be said of every world in which all
payments have finished. -/
theorem inevitably_finished [Fintype ι] {P : World ι Channels Phase → Prop}
    (hP : ∀ trace w, PaymentRun reqs channels trace w →
      (∀ k, ∃ result, w.proc k = .finished result) → P w) :
    (payments reqs).Inevitably P (dispatched reqs channels) := by
  have hinevitably : (payments reqs).Inevitably
      (fun w => Reached reqs channels w ∧ ∀ k, ∃ result, w.proc k = .finished result)
      (dispatched reqs channels) := by
    refine System.inevitably_all (Reached reqs channels)
      (fun _ phase => ∃ result, phase = .finished result) (fun k phase => phase.workLeft (reqs k)) (fun w k hw => ?_)
      (fun w k es s p hw hs => ?_) ⟨[], .refl⟩
    · obtain ⟨trace, hrun⟩ := hw
      exact (run_control hrun k).exists_step (run_notifiesWithin hrun k) w.shared
    · obtain ⟨trace, hrun⟩ := hw
      exact ⟨⟨_, hrun.tail hs⟩, Step.workLeft_lt hs (run_control hrun k)⟩
  refine hinevitably.mono fun w hw => ?_
  obtain ⟨⟨trace, hrun⟩, hfinished⟩ := hw
  exact hP trace w hrun hfinished

/-- **Every payment comes to an end.** Finitely many payments, over whatever channels and routes and
with whatever interceptors, all finish, in whatever order they take their steps. What each of them
reports is then true of its HTLCs. -/
theorem payments_finish [Fintype ι] (reqs : ι → PropagatePaymentRequest) (channels : Channels) :
    (payments reqs).Inevitably
      (fun w => ∃ trace, PaymentRun reqs channels trace w ∧
        ∀ k, ∃ result, w.proc k = .finished result ∧
          FaithfulOutcome reqs channels trace w.shared k result)
      (dispatched reqs channels) := by
  refine inevitably_finished fun trace w hrun hfinished => ⟨trace, hrun, fun k => ?_⟩
  obtain ⟨result, hresult⟩ := hfinished k
  exact ⟨result, hresult, run_faithful hrun hresult⟩

end Runs

end SimLn
