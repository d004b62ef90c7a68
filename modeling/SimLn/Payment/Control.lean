import SimLn.Payment.Transition
import Mathlib.Data.UInt
import Mathlib.Algebra.BigOperators.Group.List.Basic
import Mathlib.Tactic.Ring

/-!
# SimLn — where a payment stands

What a payment has done so far is read off its own events: `added` and `removed` are the HTLCs it
has added and removed, in order. The control invariant says how both lists determine its phase,
whatever the channels hold and whatever other payments do:

* the HTLCs added are those of hops `0, 1, …`, each with the amount and expiry that are the sums of
  what the hops from there on ask for (`HopHtlc.On`, `htlcAt`);
* those removed are the last added first, so the hops still standing are an initial segment;
* a refused hop is the one after the last added, and the failure index is the hop before it.
-/

namespace SimLn

open Lib

/-! ## Suffix sums of a path -/

open scoped UInt64.CommRing in
/-- The fees of all hops, the last of which pays the destination. -/
theorem Path.sum_fees (path : Path) :
    (path.hops.map (·.feeMsat)).sum = path.feeMsat + path.finalValueMsat := by
  conv_lhs => rw [← List.dropLast_append_getLast path.hops_ne]
  rw [List.map_append, List.sum_append, Path.feeMsat, Path.finalValueMsat]
  simp

namespace PropagatePaymentRequest

/-- The amount of the HTLC of hop `i`: what its hop and all later ones receive. -/
def amountAt (req : PropagatePaymentRequest) (i : Nat) : UInt64 :=
  ((req.route.hops.drop i).map (·.feeMsat)).sum

/-- The expiry of the HTLC of hop `i`. -/
def cltvAt (req : PropagatePaymentRequest) (i : Nat) : UInt32 :=
  ((req.route.hops.drop i).map (·.cltvExpiryDelta)).sum

def htlcAt (req : PropagatePaymentRequest) (i : Nat) : Htlc :=
  { amountMsat := req.amountAt i, cltvExpiry := req.cltvAt i }

variable {req : PropagatePaymentRequest}

/-- The first hop carries the route's total. -/
theorem amountAt_zero : req.amountAt 0 = req.route.feeMsat + req.route.finalValueMsat :=
  req.route.sum_fees

theorem drop_eq_cons {i : Nat} {hop : RouteHop} (h : req.route.hops[i]? = some hop) :
    req.route.hops.drop i = hop :: req.route.hops.drop (i + 1) := by
  obtain ⟨hlt, rfl⟩ := List.getElem?_eq_some_iff.mp h
  exact List.drop_eq_getElem_cons hlt

/-- A hop keeps its fee and passes the rest on. -/
theorem amountAt_eq {i : Nat} {hop : RouteHop} (h : req.route.hops[i]? = some hop) :
    req.amountAt i = hop.feeMsat + req.amountAt (i + 1) := by
  rw [amountAt, drop_eq_cons h, List.map_cons, List.sum_cons, amountAt]

/-- A hop keeps its delta of the expiry. -/
theorem cltvAt_eq {i : Nat} {hop : RouteHop} (h : req.route.hops[i]? = some hop) :
    req.cltvAt i = hop.cltvExpiryDelta + req.cltvAt (i + 1) := by
  rw [cltvAt, drop_eq_cons h, List.map_cons, List.sum_cons, cltvAt]

/-- The next hop is sent by the node that this one leads to. -/
theorem sender_succ {i : Nat} {hop : RouteHop} (h : req.route.hops[i]? = some hop) :
    req.sender (i + 1) = hop.pubkey := by
  simp [sender, h]

end PropagatePaymentRequest

/-! ## The log of a payment -/

def Event.added? : Event → Option HopHtlc
  | .htlcAdded h => some h
  | _ => none

def Event.removed? : Event → Option (HopHtlc × Bool)
  | .htlcRemoved h success => some (h, success)
  | _ => none

/-- The hop whose HTLC a channel refused: in `addHtlc`, or already in the forward check made when
the HTLC of the hop before was added. -/
def Event.refusedHop : Event → Option Nat
  | .addRefused hop _ => some hop
  | .forwardRefused hop _ => some (hop + 1)
  | _ => none

def Event.isCritical : Event → Bool
  | .channelError _ _ | .interceptError _ _ | .notifyError _ _ => true
  | _ => false

/-- The HTLCs that have been added, first to last. -/
def added (past : List Event) : List HopHtlc := past.filterMap Event.added?

/-- The HTLCs that have been removed, with their success, first to last. -/
def removed (past : List Event) : List (HopHtlc × Bool) := past.filterMap Event.removed?

@[simp] theorem added_append (past es : List Event) : added (past ++ es) = added past ++ added es :=
  List.filterMap_append

@[simp] theorem removed_append (past es : List Event) :
    removed (past ++ es) = removed past ++ removed es := List.filterMap_append

/-- The HTLCs added are those of the events that say so. -/
theorem mem_added {past : List Event} {h : HopHtlc} : h ∈ added past ↔ .htlcAdded h ∈ past := by
  simp only [added, List.mem_filterMap]
  constructor
  · rintro ⟨e, he, heq⟩
    cases e <;> simp_all [Event.added?]
  · intro hmem
    exact ⟨_, hmem, rfl⟩

/-- The HTLCs removed are those of the events that say so, with the success they were removed with. -/
theorem mem_removed {past : List Event} {h : HopHtlc} {success : Bool} :
    (h, success) ∈ removed past ↔ .htlcRemoved h success ∈ past := by
  simp only [removed, List.mem_filterMap]
  constructor
  · rintro ⟨e, he, heq⟩
    cases e <;> simp_all [Event.removed?]
  · intro hmem
    exact ⟨_, hmem, rfl⟩

/-- `h` is an HTLC on the channel of hop `i`, sent by the node before it. -/
structure HopHtlc.On (h : HopHtlc) (req : PropagatePaymentRequest) (i : Nat) : Prop where
  hop : h.hop = i
  sender : h.sender = req.sender i
  channel : ∃ hop, req.route.hops[i]? = some hop ∧ h.ref.channelId = hop.scid

/-- What holds of the events of a payment by themselves, in any phase. -/
structure Log (req : PropagatePaymentRequest) (past : List Event) : Prop where
  addedAt : ∀ i h, (added past)[i]? = some h → h.On req i ∧ h.htlc = req.htlcAt i
  removedAt : ∀ j h success, (removed past)[j]? = some (h, success) →
    ∃ i, i + j + 1 = (added past).length ∧ h.On req i
  order : past.Pairwise fun e f => e.removed? ≠ none → f.added? = none
  refusedAt : ∀ e ∈ past, ∀ hop, e.refusedHop = some hop →
    hop = (added past).length ∧ hop < req.route.hops.length

/-- No channel has refused an HTLC of the payment. -/
def Unrefused (past : List Event) : Prop := ∀ e ∈ past, e.refusedHop = none

/-- The critical error that ended the payment, if one did. -/
def HasCritical (past : List Event) : Prop := ∃ e ∈ past, e.isCritical = true

/-- An event that neither moves an HTLC nor refuses one. -/
def Event.isSilent : Event → Bool
  | .htlcAdded _ | .htlcRemoved _ _ | .addRefused _ _ | .forwardRefused _ _ => false
  | _ => true

def Silent (es : List Event) : Prop := es.all Event.isSilent = true

theorem Event.added?_of_isSilent {e : Event} (h : e.isSilent = true) : e.added? = none := by
  cases e <;> first | rfl | cases h

theorem Event.removed?_of_isSilent {e : Event} (h : e.isSilent = true) : e.removed? = none := by
  cases e <;> first | rfl | cases h

theorem Event.refusedHop_of_isSilent {e : Event} (h : e.isSilent = true) :
    e.refusedHop = none := by
  cases e <;> first | rfl | cases h

section Silent

variable {es : List Event}

theorem Silent.isSilent (h : Silent es) {e : Event} (he : e ∈ es) : e.isSilent = true :=
  List.all_eq_true.mp h e he

/-- Silent events add no HTLC. -/
theorem Silent.added (h : Silent es) : added es = [] :=
  List.filterMap_eq_nil_iff.mpr fun _ he => Event.added?_of_isSilent (h.isSilent he)

/-- Silent events remove no HTLC. -/
theorem Silent.removed (h : Silent es) : removed es = [] :=
  List.filterMap_eq_nil_iff.mpr fun _ he => Event.removed?_of_isSilent (h.isSilent he)

theorem Silent.unrefused (h : Silent es) : Unrefused es :=
  fun _ he => Event.refusedHop_of_isSilent (h.isSilent he)

theorem Silent.added_append (h : Silent es) (past : List Event) :
    SimLn.added (past ++ es) = SimLn.added past := by
  rw [SimLn.added_append, h.added, List.append_nil]

theorem Silent.removed_append (h : Silent es) (past : List Event) :
    SimLn.removed (past ++ es) = SimLn.removed past := by
  rw [SimLn.removed_append, h.removed, List.append_nil]

end Silent

variable {req : PropagatePaymentRequest} {past : List Event}

theorem Log.nil : Log req [] :=
  ⟨by simp [added], by simp [removed], List.Pairwise.nil, by simp⟩

/-- What stands in a list with one more element stands in the list, or is that element. -/
theorem getElem?_concat {α : Type} {l : List α} {a b : α} {i : Nat}
    (h : (l ++ [a])[i]? = some b) : l[i]? = some b ∨ (i = l.length ∧ b = a) := by
  rcases Nat.lt_trichotomy i l.length with hlt | heq | hgt
  · rw [List.getElem?_append_left hlt] at h
    exact Or.inl h
  · subst heq
    simp only [List.getElem?_concat_length, Option.some.injEq] at h
    exact Or.inr ⟨rfl, h.symm⟩
  · rw [List.getElem?_eq_none (by simp; omega)] at h
    cases h

/-- Events that move no HTLC keep the log, if the refusals among them are of the next hop. -/
theorem Log.silent {es : List Event} (h : Log req past)
    (hes : ∀ e ∈ es, e.added? = none ∧ e.removed? = none ∧
      ∀ hop, e.refusedHop = some hop →
        hop = (added past).length ∧ hop < req.route.hops.length) : Log req (past ++ es) := by
  -- neither list grows
  have hadded : added es = [] := by
    rw [added, List.filterMap_eq_nil_iff]
    exact fun e he => (hes e he).1
  have hremoved : removed es = [] := by
    rw [removed, List.filterMap_eq_nil_iff]
    exact fun e he => (hes e he).2.1
  refine ⟨by simpa [hadded] using h.addedAt, by simpa [hadded, hremoved] using h.removedAt, ?_, ?_⟩
  · rw [List.pairwise_append]
    refine ⟨h.order, ?_, fun e _ f hf _ => (hes f hf).1⟩
    exact List.pairwise_of_forall_mem_list fun e he f hf _ => (hes f hf).1
  · intro e he hop hhop
    rw [added_append, hadded, List.append_nil]
    rcases List.mem_append.mp he with he | he
    · exact h.refusedAt e he hop hhop
    · exact (hes e he).2.2 hop hhop

/-- Silent events do not change what a log says. -/
theorem Log.append_silent {es : List Event} (h : Log req past) (hes : Silent es) :
    Log req (past ++ es) := by
  refine h.silent fun e he => ?_
  have hsilent := hes.isSilent he
  refine ⟨Event.added?_of_isSilent hsilent, Event.removed?_of_isSilent hsilent, fun hop hhop => ?_⟩
  rw [Event.refusedHop_of_isSilent hsilent] at hhop
  cases hhop

/-- Adding the HTLC of the next hop, before anything has been removed or refused. -/
theorem Log.add {x : HopHtlc} (h : Log req past) (hremoved : removed past = [])
    (hunrefused : Unrefused past) (hon : x.On req (added past).length)
    (hhtlc : x.htlc = req.htlcAt (added past).length) : Log req (past ++ [.htlcAdded x]) := by
  have hadded : added [.htlcAdded x] = [x] := rfl
  have hnone : removed [.htlcAdded x] = [] := rfl
  refine ⟨fun i y hy => ?_, by simp [hnone, hremoved], ?_, fun e he hop hhop => ?_⟩
  · rw [added_append, hadded] at hy
    rcases getElem?_concat hy with hy | ⟨rfl, rfl⟩
    · exact h.addedAt i y hy
    · exact ⟨hon, hhtlc⟩
  · rw [List.pairwise_append]
    refine ⟨h.order, List.pairwise_singleton _ _, fun e he f _ hne => ?_⟩
    -- nothing has been removed that the new HTLC could come after
    have hmem : e.removed? = none := List.filterMap_eq_nil_iff.mp hremoved e he
    exact absurd hmem hne
  · rcases List.mem_append.mp he with he | he
    · rw [hunrefused e he] at hhop
      cases hhop
    · rw [List.mem_singleton.mp he] at hhop
      cases hhop

/-- Removing the HTLC of the last hop that still has one. -/
theorem Log.remove {x : HopHtlc} {i : Nat} (h : Log req past) (success : Bool) (hon : x.On req i)
    (hi : i + (removed past).length + 1 = (added past).length) :
    Log req (past ++ [.htlcRemoved x success]) := by
  have hadded : added [.htlcRemoved x success] = [] := rfl
  have hremoved : removed [.htlcRemoved x success] = [(x, success)] := rfl
  refine ⟨by simpa [hadded] using h.addedAt, fun j y b hy => ?_, ?_, fun e he hop hhop => ?_⟩
  · rw [removed_append, hremoved] at hy
    rw [added_append, hadded, List.append_nil]
    rcases getElem?_concat hy with hy | ⟨rfl, heq⟩
    · exact h.removedAt j y b hy
    · obtain ⟨rfl, rfl⟩ := Prod.mk.inj heq
      exact ⟨i, hi, hon⟩
  · rw [List.pairwise_append]
    refine ⟨h.order, List.pairwise_singleton _ _, fun e _ f hf _ => ?_⟩
    rw [List.mem_singleton.mp hf]
    rfl
  · rw [added_append, hadded, List.append_nil]
    rcases List.mem_append.mp he with he | he
    · exact h.refusedAt e he hop hhop
    · rw [List.mem_singleton.mp he] at hhop
      cases hhop

/-! ## The phases -/

/-- The variables of `add_htlcs` when it comes to hop `loop.i`. -/
structure AddLoop.At (loop : AddLoop) (req : PropagatePaymentRequest) : Prop where
  lt : loop.i < req.route.hops.length
  node : loop.outgoingNode = req.sender loop.i
  amount : loop.outgoingAmount = req.amountAt loop.i
  cltv : loop.outgoingCltv = req.cltvAt loop.i

/-- `remove_htlcs` has `left` HTLCs to remove, and removes them with the success it was given: all
those of the path if it is true. -/
structure RemoveLoop.At (loop : RemoveLoop) (req : PropagatePaymentRequest) (past : List Event)
    (left : Nat) : Prop where
  lt : loop.resolutionIdx < req.route.hops.length
  le : loop.i ≤ loop.resolutionIdx
  added : (added past).length = loop.resolutionIdx + 1
  left : left + (removed past).length = (SimLn.added past).length
  success : loop.success = true →
    (SimLn.added past).length = req.route.hops.length ∧ Unrefused past
  flags : ∀ x ∈ removed past, x.2 = loop.success

/-- Every HTLC that was added has been removed, unless a critical error came first. -/
def Resolved (past : List Event) : Prop :=
  (removed past).length = (added past).length ∨ HasCritical past

/-- What a result says about the events behind it. -/
inductive Reported (req : PropagatePaymentRequest) (past : List Event) : PaymentResult → Prop where
  | unknown (hcritical : HasCritical past) (hremoved : removed past = [])
      (hunrefused : Unrefused past) : Reported req past ⟨0, .unknown⟩
  | success (hadded : (added past).length = req.route.hops.length)
      (hflags : ∀ x ∈ removed past, x.2 = true) (hunrefused : Unrefused past)
      (hresolved : Resolved past) : Reported req past ⟨1, .success⟩
  | failure (hflags : ∀ x ∈ removed past, x.2 = false) (hresolved : Resolved past) :
      Reported req past ⟨0, .indexFailure ((added past).length - 1)⟩

def PhaseAt (req : PropagatePaymentRequest) (past : List Event) : Phase → Prop
  | .adding loop => loop.At req ∧ (added past).length = loop.i ∧ removed past = [] ∧
      Unrefused past ∧ loop.failIdx = (if loop.i = 0 then none else some (loop.i - 1))
  | .intercepting loop _ => loop.At req ∧ (added past).length = loop.i + 1 ∧ removed past = [] ∧
      Unrefused past ∧ loop.failIdx = some loop.i
  | .removing loop => loop.At req past (loop.i + 1)
  | .notifying loop _ _ => loop.At req past loop.i
  | .finished result => Reported req past result

/-- The control invariant. -/
structure Control (req : PropagatePaymentRequest) (past : List Event) (phase : Phase) : Prop where
  log : Log req past
  phase : PhaseAt req past phase

/-- Two stretches without a refusal make one. -/
theorem Unrefused.append {es : List Event} (h : Unrefused past) (hes : Unrefused es) :
    Unrefused (past ++ es) := by
  intro e he
  rcases List.mem_append.mp he with he | he
  · exact h e he
  · exact hes e he

/-- A payment that has not taken a step has no events. -/
theorem control_start (req : PropagatePaymentRequest) : Control req [] req.start := by
  refine ⟨.nil, ⟨?_, rfl, ?_, rfl⟩, rfl, rfl, by simp [Unrefused], rfl⟩
  · exact List.length_pos_iff.mpr req.route.hops_ne
  · exact PropagatePaymentRequest.amountAt_zero.symm

/-- The HTLC that the loop offers is that of its hop. -/
theorem AddLoop.At.offer {loop : AddLoop} {hop : RouteHop} {index : UInt64} (h : loop.At req)
    (hhop : req.route.hops[loop.i]? = some hop) : (loop.offer hop index).On req loop.i :=
  ⟨rfl, h.node, hop, hhop, rfl⟩

/-- It has the amount and the expiry of the hop. -/
theorem AddLoop.At.offer_htlc {loop : AddLoop} {hop : RouteHop} {index : UInt64}
    (h : loop.At req) : (loop.offer hop index).htlc = req.htlcAt loop.i := by
  simp only [AddLoop.offer, PropagatePaymentRequest.htlcAt, h.amount, h.cltv]

open scoped UInt64.CommRing UInt32.CommRing in
/-- The loop carries on with the amounts of the next hop. -/
theorem AddLoop.At.next {loop : AddLoop} {hop : RouteHop} {records : CustomRecords}
    (h : loop.At req) (hhop : req.route.hops[loop.i]? = some hop)
    (hlt : loop.i + 1 < req.route.hops.length) : (loop.next hop records).At req := by
  refine ⟨hlt, (PropagatePaymentRequest.sender_succ hhop).symm, ?_, ?_⟩
  · show loop.outgoingAmount - hop.feeMsat = req.amountAt (loop.i + 1)
    rw [h.amount, PropagatePaymentRequest.amountAt_eq hhop]
    ring
  · show loop.outgoingCltv - hop.cltvExpiryDelta = req.cltvAt (loop.i + 1)
    rw [h.cltv, PropagatePaymentRequest.cltvAt_eq hhop]
    ring

/-- `remove_htlcs` starts with all that has been added. -/
theorem phaseAt_startRemoving {idx : Nat} {success : Bool}
    (hlt : idx < req.route.hops.length) (hadded : (added past).length = idx + 1)
    (hremoved : removed past = [])
    (hsuccess : success = true → (added past).length = req.route.hops.length ∧ Unrefused past) :
    PhaseAt req past (startRemoving idx success) := by
  refine ⟨hlt, Nat.le_refl _, hadded, ?_, hsuccess, by simp [hremoved]⟩
  rw [hremoved, hadded]
  rfl

/-- A refusal, or an interceptor, ends `add_htlcs`: events that move no HTLC, then the way back. -/
theorem phaseAt_failing {idx : Nat} {es : List Event} (hlt : idx < req.route.hops.length)
    (hlen : (added past).length = idx + 1) (hremoved : removed past = []) (hes : added es = [])
    (hes' : removed es = []) : PhaseAt req (past ++ es) (startRemoving idx false) := by
  have hadded : (added (past ++ es)).length = idx + 1 := by
    rw [added_append, hes, List.append_nil, hlen]
  have hnone : removed (past ++ es) = [] := by
    rw [removed_append, hremoved, hes', List.append_nil]
  exact phaseAt_startRemoving hlt hadded hnone (by simp)

/-- A critical error ends `add_htlcs`, and nothing is taken back. -/
theorem Reported.critical {es : List Event} (hremoved : removed past = [])
    (hunrefused : Unrefused past) (hcritical : HasCritical es) (hes : Silent es) :
    Reported req (past ++ es) ⟨0, .unknown⟩ := by
  obtain ⟨e, he, herr⟩ := hcritical
  have hnone : removed (past ++ es) = [] := by
    rw [hes.removed_append, hremoved]
  exact .unknown ⟨e, List.mem_append_right _ he, herr⟩ hnone (hunrefused.append hes.unrefused)

/-- A critical error leaves nothing to say of the HTLCs. -/
theorem Resolved.of_critical {es : List Event} (h : HasCritical es) : Resolved (past ++ es) := by
  obtain ⟨e, he, hcritical⟩ := h
  exact Or.inr ⟨e, by simp [he], hcritical⟩

/-- Whatever a finished payment has removed, it removed with the success that it reports. -/
theorem Reported.settled {result : PaymentResult} (h : Reported req past result) :
    (∀ x ∈ removed past, x.2 = decide (result.paymentOutcome = .success)) ∧ Resolved past := by
  cases h with
  | unknown hcritical hremoved _ => exact ⟨by simp [hremoved], .inr hcritical⟩
  | success _ hflags _ hresolved => exact ⟨hflags, hresolved⟩
  | failure hflags hresolved => exact ⟨hflags, hresolved⟩

/-- Without a critical error it has removed all it added. -/
theorem Reported.of_not_critical {result : PaymentResult} (h : Reported req past result)
    (hok : ¬ HasCritical past) :
    (removed past).length = (added past).length ∧
      ∀ x ∈ removed past, x.2 = decide (result.paymentOutcome = .success) := by
  obtain ⟨hflags, hresolved⟩ := h.settled
  exact ⟨hresolved.resolve_right hok, hflags⟩

/-- The end of `remove_htlcs`. -/
theorem RemoveLoop.At.reported {loop : RemoveLoop} {left : Nat} {es : List Event}
    (h : loop.At req past left) (hes : Silent es) (hresolved : Resolved (past ++ es)) :
    Reported req (past ++ es) loop.result := by
  unfold RemoveLoop.result
  cases hs : loop.success with
  | true =>
    obtain ⟨hall, hpast⟩ := h.success hs
    refine .success (by rw [hes.added_append, hall]) ?_ (hpast.append hes.unrefused) hresolved
    rw [hes.removed_append, ← hs]
    exact h.flags
  | false =>
    have hidx : loop.resolutionIdx = (SimLn.added (past ++ es)).length - 1 := by
      rw [hes.added_append, h.added]
      rfl
    rw [if_neg (by decide), hidx]
    refine .failure ?_ hresolved
    rw [hes.removed_append, ← hs]
    exact h.flags

/-- Notifications move no HTLC. -/
theorem RemoveLoop.At.silent {loop : RemoveLoop} {left : Nat} {es : List Event}
    (h : loop.At req past left) (hes : Silent es) : loop.At req (past ++ es) left := by
  refine ⟨h.lt, h.le, ?_, ?_, fun hs => ?_, ?_⟩
  · rw [hes.added_append, h.added]
  · rw [hes.added_append, hes.removed_append, h.left]
  · rw [hes.added_append]
    exact ⟨(h.success hs).1, (h.success hs).2.append hes.unrefused⟩
  · rw [hes.removed_append]
    exact h.flags

/-- One more HTLC has been removed, the last of those that were left. -/
theorem RemoveLoop.At.remove {loop : RemoveLoop} {i : Nat} {x : HopHtlc}
    (h : loop.At req past (i + 1)) :
    loop.At req (past ++ [.htlcRemoved x loop.success]) i := by
  have hremoved : removed (past ++ [.htlcRemoved x loop.success])
      = removed past ++ [(x, loop.success)] := removed_append _ _
  have hadded : SimLn.added (past ++ [.htlcRemoved x loop.success]) = SimLn.added past := by
    rw [added_append]
    exact List.append_nil _
  have hleft := h.left
  refine ⟨h.lt, h.le, by rw [hadded, h.added], ?_, fun hs => ?_, fun y hy => ?_⟩
  · rw [hadded, hremoved, List.length_append, List.length_singleton]
    omega
  · rw [hadded]
    exact ⟨(h.success hs).1, (h.success hs).2.append (by simp [Unrefused, Event.refusedHop])⟩
  · rw [hremoved] at hy
    rcases List.mem_append.mp hy with hy | hy
    · exact h.flags y hy
    · rw [List.mem_singleton.mp hy]

/-! ## The step lemma -/

/-- Only a hop that has a next one is checked for forwarding. -/
theorem checkForward_lt {loop : AddLoop} {hop : RouteHop} {channels : Channels}
    (h : checkForward req loop hop channels ≠ .ok (.ok ())) :
    loop.i + 1 < req.route.hops.length := by
  by_contra hge
  rw [checkForward, List.getElem?_eq_none (by omega)] at h
  exact h rfl

/-- Asking the interceptors moves nothing. -/
theorem silent_intercepted (asked : List Nat) (request : InterceptRequest) :
    Silent (asked.map (Event.intercepted · request)) := by
  rw [Silent, List.all_map]
  exact List.all_eq_true.mpr fun _ _ => rfl

/-- Adding the HTLC of the loop's hop. -/
theorem log_offer {loop : AddLoop} {hop : RouteHop} (index : UInt64)
    (hlog : Log req past) (hphase : PhaseAt req past (.adding loop))
    (hhop : req.route.hops[loop.i]? = some hop) :
    Log req (past ++ [.htlcAdded (loop.offer hop index)]) ∧
      (added (past ++ [.htlcAdded (loop.offer hop index)])).length = loop.i + 1 ∧
      removed (past ++ [.htlcAdded (loop.offer hop index)]) = [] ∧
      Unrefused (past ++ [.htlcAdded (loop.offer hop index)]) := by
  obtain ⟨hat, hlen, hremoved, hunrefused, -⟩ := hphase
  refine ⟨hlog.add hremoved hunrefused ?_ ?_, ?_, ?_, ?_⟩
  · rw [hlen]
    exact hat.offer hhop
  · rw [hlen]
    exact hat.offer_htlc
  · rw [added_append, List.length_append, hlen]
    rfl
  · rw [removed_append, hremoved]
    rfl
  · exact hunrefused.append (by simp [Unrefused, Event.refusedHop])

section Step

variable {channels channels' : Channels} {phase' : Phase} {es : List Event}

/-- A hop that is added, refused or met with an error: what it adds to the events decides where it
leads. -/
theorem Transition.control_adding {loop : AddLoop}
    (h : Transition req channels (.adding loop) es channels' phase')
    (hc : Control req past (.adding loop)) : Control req (past ++ es) phase' := by
  obtain ⟨hlog, hphase⟩ := hc
  cases h with
  | addCritical hhop hsame hsane =>
    obtain ⟨hat, hlen, hremoved, hunrefused, hidx⟩ := hphase
    exact ⟨hlog.append_silent rfl, .critical hremoved hunrefused ⟨_, .head _, rfl⟩ rfl⟩
  | @addRefusedFirst _ _ _ fwdErr hhop hsame hnone =>
    obtain ⟨hat, hlen, hremoved, hunrefused, hidx⟩ := hphase
    -- no index to fail from means that this is the first hop
    have hzero : loop.i = 0 := by
      by_contra hne
      rw [if_neg hne, hnone] at hidx
      cases hidx
    have hadded : (SimLn.added (past ++ [.addRefused loop.i fwdErr,
        .reported ⟨0, .indexFailure 0⟩])).length = 0 := by
      rw [added_append, List.length_append, hlen, hzero]
      rfl
    have hremoved' : SimLn.removed (past ++ [.addRefused loop.i fwdErr,
        .reported ⟨0, .indexFailure 0⟩]) = [] := by
      rw [removed_append, hremoved]
      rfl
    have hflags : ∀ x ∈ SimLn.removed (past ++ [.addRefused loop.i fwdErr,
        .reported ⟨0, .indexFailure 0⟩]), x.2 = false := by simp [hremoved']
    refine ⟨hlog.silent ?_, ?_⟩
    · simp [Event.added?, Event.removed?, Event.refusedHop, hlen, hat.lt]
    · have hreported : Reported req _ _ := .failure hflags (Or.inl (by rw [hremoved', hadded]; rfl))
      rwa [hadded] at hreported
  | @addRefused _ _ _ idx fwdErr hhop hsame hsome =>
    obtain ⟨hat, hlen, hremoved, hunrefused, hidx⟩ := hphase
    -- the index to fail from is the hop before
    have hlast : loop.i = idx + 1 := by
      rw [hsome] at hidx
      split at hidx
      · cases hidx
      · have := Option.some.inj hidx
        omega
    have hlt := hat.lt
    refine ⟨hlog.silent ?_, ?_⟩
    · simp [Event.added?, Event.removed?, Event.refusedHop, hlen, hlt]
    · exact phaseAt_failing (by omega) (hlen.trans hlast) hremoved rfl rfl
  | @forwardCritical _ _ _ index _ _ err hhop hpush hcheck =>
    obtain ⟨hlog', hlen, hremoved, hunrefused⟩ := log_offer index hlog hphase hhop
    rw [← List.singleton_append, ← List.append_assoc]
    exact ⟨hlog'.append_silent rfl, .critical hremoved hunrefused ⟨_, .head _, rfl⟩ rfl⟩
  | @forwardRefused _ _ _ index _ _ fwdErr hhop hpush hcheck =>
    obtain ⟨hlog', hlen, hremoved, hunrefused⟩ := log_offer index hlog hphase hhop
    rw [← List.singleton_append, ← List.append_assoc]
    have hnext : loop.i + 1 < req.route.hops.length :=
      checkForward_lt (fun hok => by rw [hcheck] at hok; cases hok)
    refine ⟨hlog'.silent ?_, phaseAt_failing (lookup_lt hhop) hlen hremoved rfl rfl⟩
    rw [hlen]
    simp [Event.added?, Event.removed?, Event.refusedHop, hnext]
  | @added _ _ hop index _ _ hhop hpush hcheck =>
    obtain ⟨hlog', hlen, hremoved, hunrefused⟩ := log_offer index hlog hphase hhop
    obtain ⟨hat, -⟩ := hphase
    have hes : Silent ((List.range req.interceptors.length).map
        (Event.intercepted · (interceptRequest req loop hop index))) :=
      silent_intercepted _ _
    rw [← List.singleton_append, ← List.append_assoc]
    refine ⟨hlog'.append_silent hes, ⟨hat.lt, hat.node, hat.amount, hat.cltv⟩, ?_, ?_, ?_, rfl⟩
    · rw [hes.added_append]
      exact hlen
    · rw [hes.removed_append]
      exact hremoved
    · exact hunrefused.append hes.unrefused

/-- The answers of the interceptors send the payment on or back. -/
theorem Transition.control_intercepting {loop : AddLoop} {request : InterceptRequest}
    (h : Transition req channels (.intercepting loop request) es channels' phase')
    (hc : Control req past (.intercepting loop request)) : Control req (past ++ es) phase' := by
  obtain ⟨hlog, hat, hlen, hremoved, hunrefused, hidx⟩ := hc
  cases h with
  | interceptCritical hhop =>
    exact ⟨hlog.append_silent rfl, .critical hremoved hunrefused ⟨_, .head _, rfl⟩ rfl⟩
  | interceptRefusedFirst hhop hnone =>
    -- by now the HTLC of this hop has been added, so there is an index to fail from
    rw [hnone] at hidx
    cases hidx
  | @interceptRefused _ _ _ idx fwdErr hhop hsome =>
    obtain rfl : idx = loop.i := Option.some.inj (hsome.symm.trans hidx)
    exact ⟨hlog.append_silent rfl, phaseAt_failing hat.lt hlen hremoved rfl rfl⟩
  | forwarded hhop hlt =>
    rw [List.append_nil]
    refine ⟨hlog, hat.next hhop hlt, hlen, hremoved, hunrefused, ?_⟩
    exact hidx.trans (if_neg (Nat.succ_ne_zero _)).symm
  | received hhop hlast =>
    rw [List.append_nil]
    exact ⟨hlog, phaseAt_startRemoving hat.lt hlen hremoved
      fun _ => ⟨hlen.trans hlast, hunrefused⟩⟩

/-- An HTLC is removed, or its channel is not there to remove it from. -/
theorem Transition.control_removing {loop : RemoveLoop}
    (h : Transition req channels (.removing loop) es channels' phase')
    (hc : Control req past (.removing loop)) : Control req (past ++ es) phase' := by
  obtain ⟨hlog, hphase⟩ := hc
  have hat : loop.At req past (loop.i + 1) := hphase
  cases h with
  | removeCritical hhop hsame hsane hnone =>
    exact ⟨hlog.append_silent rfl, hat.reported rfl (.of_critical ⟨_, .head _, rfl⟩)⟩
  | removedInsane hhop hpop hinsane =>
    exact ⟨hlog.append_silent rfl, hat.reported rfl (.of_critical ⟨_, .head _, rfl⟩)⟩
  | @removed _ _ hop htlc index _ _ hhop hpop =>
    have hleft := hat.left
    exact ⟨hlog.remove (i := loop.i) loop.success ⟨rfl, rfl, hop, hhop, rfl⟩ (by omega), hat.remove⟩

/-- The notices of an HTLC come one after the other, before the HTLC ahead of it is removed. -/
theorem Transition.control_notifying {loop : RemoveLoop} {resolution : InterceptResolution}
    {next : Nat} (h : Transition req channels (.notifying loop resolution next) es channels' phase')
    (hc : Control req past (.notifying loop resolution next)) :
    Control req (past ++ es) phase' := by
  obtain ⟨hlog, hphase⟩ := hc
  have hat : loop.At req past loop.i := hphase
  cases h with
  | notifyCritical hnext =>
    exact ⟨hlog.append_silent rfl, hat.reported rfl (.of_critical ⟨_, .tail _ (.head _), rfl⟩)⟩
  | notified hnext => exact ⟨hlog.append_silent rfl, hat.silent rfl⟩
  | @removeNext _ _ _ i hhop hi =>
    rw [List.append_nil]
    have hle : i ≤ loop.resolutionIdx := by
      have := hat.le
      omega
    rw [hi] at hat
    exact ⟨hlog, hat.lt, hle, hat.added, hat.left, hat.success, hat.flags⟩
  | removedAll hi =>
    have hleft := hat.left
    refine ⟨hlog.append_silent rfl, hat.reported rfl (Or.inl ?_)⟩
    -- that was the HTLC of the first hop, so that none is left
    rw [removed_append, added_append, List.length_append, List.length_append]
    show (SimLn.removed past).length + 0 = (SimLn.added past).length + 0
    omega

/-- Every step keeps what the events so far say about the phase. -/
theorem Step.control {phase : Phase} (h : Step req channels phase es channels' phase')
    (hc : Control req past phase) : Control req (past ++ es) phase' := by
  cases phase with
  | adding loop => exact h.transition.control_adding hc
  | intercepting loop request => exact h.transition.control_intercepting hc
  | removing loop => exact h.transition.control_removing hc
  | notifying loop resolution next => exact h.transition.control_notifying hc
  | finished result => cases h

end Step

/-- Every payment keeps to its control invariant, in every run. -/
theorem run_control {ι : Type} [DecidableEq ι] {reqs : ι → PropagatePaymentRequest}
    {channels : Channels} {trace : List (ι × Event)} {w : World ι Channels Phase}
    (h : PaymentRun reqs channels trace w) (k : ι) :
    Control (reqs k) (eventsOf k trace) (w.proc k) :=
  h.local_invariant (I := fun k past phase => Control (reqs k) past phase)
    (fun k => control_start (reqs k)) (fun _ _ _ _ _ _ _ hs hc => Step.control hs hc) k

/-- An HTLC that a payment has added is found in its log at the index of its hop. -/
theorem Control.getElem?_added {phase : Phase}
    (h : Control req past phase) {x : HopHtlc} (hx : x ∈ added past) :
    (added past)[x.hop]? = some x := by
  obtain ⟨j, hj⟩ := List.mem_iff_getElem?.mp hx
  obtain ⟨hon, -⟩ := h.log.addedAt j x hj
  rwa [hon.hop]

/-- What has been removed, when it was added before, is the end of what was added, backwards. -/
theorem Log.removed_eq (h : Log req past)
    (hremoves : ∀ x success, (x, success) ∈ removed past → x ∈ added past) :
    (removed past).map Prod.fst = (added past).reverse.take (removed past).length := by
  refine List.ext_getElem? fun j => ?_
  by_cases hj : j < (removed past).length
  · have hx := List.getElem?_eq_getElem hj
    generalize (removed past)[j] = x at hx
    obtain ⟨i, hi, hon⟩ := h.removedAt j x.1 x.2 hx
    obtain ⟨m, hm⟩ := List.mem_iff_getElem?.mp (hremoves x.1 x.2 (List.mem_of_getElem? hx))
    -- an HTLC is on one hop only
    obtain rfl : m = i := (h.addedAt m x.1 hm).1.hop.symm.trans hon.hop
    rw [List.getElem?_map, hx, List.getElem?_take_of_lt hj, List.getElem?_reverse (by omega),
      show (added past).length - 1 - j = m by omega, hm]
    rfl
  · rw [List.getElem?_eq_none (by simp; omega), List.getElem?_eq_none (by simp; omega)]

/-! ## The end of a payment -/

/-- The result is the last thing that a payment emits. -/
theorem Step.reported_last {channels channels' : Channels} {phase phase' : Phase} {es : List Event}
    (h : Step req channels phase es channels' phase') {result : PaymentResult}
    (hphase : phase' = .finished result) : es.getLast? = some (.reported result) := by
  cases h.transition with
  | addCritical | addRefusedFirst | forwardCritical | interceptCritical | interceptRefusedFirst
  | removeCritical | removedInsane | notifyCritical | removedAll =>
    obtain ⟨rfl⟩ := hphase
    rfl
  | addRefused | forwardRefused | added | interceptRefused | forwarded | received | removed
  | notified | removeNext => cases hphase

/-- A payment ends by reporting its result, once. -/
theorem run_reported {ι : Type} [DecidableEq ι] {reqs : ι → PropagatePaymentRequest}
    {channels : Channels} {trace : List (ι × Event)} {w : World ι Channels Phase}
    (h : PaymentRun reqs channels trace w) {k : ι} {result : PaymentResult}
    (hfinished : w.proc k = .finished result) :
    ∃ before, eventsOf k trace = before ++ [.reported result] := by
  have hinv := h.local_invariant
    (I := fun _ past phase => ∀ r, phase = .finished r → past.getLast? = some (.reported r))
    (fun _ r hr => by cases hr) fun k s p es s' p' past hs _ r hr => by
      rw [List.getLast?_append, Step.reported_last hs hr]
      rfl
  exact List.getLast?_eq_some_iff.mp (hinv k result hfinished)

/-! ## What a step moves -/

/-- The effect of a step on the channels, next to the events that record it. -/
inductive Moved (req : PropagatePaymentRequest) (channels : Channels) (es : List Event)
    (channels' : Channels) : Prop where
  | nothing (hsame : SameChannels channels channels') (hadded : added es = [])
      (hremoved : removed es = [])
  | pushed {x : HopHtlc} {c : SimulatedChannel} {s : Side}
      (hpush : Pushed req.paymentHash x c s channels channels') (hadded : added es = [x])
      (hremoved : removed es = [])
  | popped {x : HopHtlc} {success : Bool} {c : SimulatedChannel} {s : Side}
      (hpop : Popped req.paymentHash x success c s channels channels') (hadded : added es = [])
      (hremoved : removed es = [(x, success)])
  /-- The channel has lost the HTLC, but did not pass its sanity check. -/
  | insane {x : HopHtlc} {success : Bool} {c : SimulatedChannel} {s : Side}
      (hpop : Popped req.paymentHash x success c s channels channels')
      (hinsane : c.sanityCheck ≠ .ok ()) (hadded : added es = []) (hremoved : removed es = [])
      (hcritical : HasCritical es)

/-- Requests to the interceptors add no HTLC. -/
theorem added_map_intercepted (n : Nat) (request : InterceptRequest) :
    added ((List.range n).map (Event.intercepted · request)) = [] := by
  simp [added, List.filterMap_eq_nil_iff, Event.added?]

/-- Requests to the interceptors remove no HTLC. -/
theorem removed_map_intercepted (n : Nat) (request : InterceptRequest) :
    removed ((List.range n).map (Event.intercepted · request)) = [] := by
  simp [removed, List.filterMap_eq_nil_iff, Event.removed?]

/-- A step moves the channels as its events say. -/
theorem Step.moved {channels channels' : Channels} {phase phase' : Phase} {es : List Event}
    (h : Step req channels phase es channels' phase') : Moved req channels es channels' := by
  cases h.transition with
  | addCritical hhop hsame hsane => exact .nothing hsame rfl rfl
  | addRefusedFirst hhop hsame hidx => exact .nothing hsame rfl rfl
  | addRefused hhop hsame hidx => exact .nothing hsame rfl rfl
  | forwardCritical hhop hpush hcheck => exact .pushed hpush rfl rfl
  | forwardRefused hhop hpush hcheck => exact .pushed hpush rfl rfl
  | added hhop hpush hcheck =>
    refine .pushed hpush ?_ ?_
    · rw [← List.singleton_append, added_append, added_map_intercepted]
      rfl
    · rw [← List.singleton_append, removed_append, removed_map_intercepted]
      rfl
  | removeCritical hhop hsame hsane hnone => exact .nothing hsame rfl rfl
  | removedInsane hhop hpop hinsane => exact .insane hpop hinsane rfl rfl ⟨_, .head _, rfl⟩
  | removed hhop hpop => exact .popped hpop rfl rfl
  | interceptCritical | interceptRefusedFirst | interceptRefused | forwarded | received
  | notifyCritical | notified | removeNext | removedAll => exact .nothing (.refl _) rfl rfl

end SimLn
