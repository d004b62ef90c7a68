import SimLn.Payment.Transition

/-!
# SimLn — what payments do to the channels

Seen from one channel, a step of any payment leaves it alone, adds an HTLC to one of its sides or
removes one (`ChannelStep`). What all three preserve holds of the channel in every reachable
state, whatever the payments, their hashes and the interceptors are (`channel_invariant`).
-/

namespace SimLn

open Lib

/-- What a payment with this hash can do to a channel in one step. -/
inductive ChannelStep (hash : PaymentHash) (c : SimulatedChannel) : SimulatedChannel → Prop where
  | same : ChannelStep hash c c
  | push {s : Side} {htlc : Htlc} (hacc : c.Accepts s hash htlc) :
      ChannelStep hash c (c.pushHtlc s hash htlc)
  | pop {s : Side} {e : Htlc × UInt64} (success : Bool)
      (hentry : (c.node s).inFlight.lookup hash = some e) :
      ChannelStep hash c (c.popHtlc s hash e.1.amountMsat success)

/-- `channels'` has the channels of `channels`, each after a step of its own. -/
def ChannelsStep (hash : PaymentHash) (channels channels' : Channels) : Prop :=
  ∀ scid, Option.Rel (ChannelStep hash) (channels.lookup scid) (channels'.lookup scid)

theorem channelStep_refl (hash : PaymentHash) (c : Option SimulatedChannel) :
    Option.Rel (ChannelStep hash) c c := by
  cases c with
  | none => exact .none
  | some c => exact .some .same

/-- No operation at all is one that changes at most one channel. -/
theorem SameChannels.channelsStep {channels channels' : Channels}
    (h : SameChannels channels channels') (hash : PaymentHash) :
    ChannelsStep hash channels channels' := by
  intro scid
  rw [h scid]
  exact channelStep_refl hash _

/-- Replacing one channel by what an operation makes of it. -/
theorem channelsStep_insert {hash : PaymentHash} {channels : Channels} {scid : ShortChannelID}
    {c c' : SimulatedChannel} (hc : channels.lookup scid = some c) (h : ChannelStep hash c c') :
    ChannelsStep hash channels (channels.insert scid c') := by
  intro scid'
  by_cases hs : scid' = scid
  · rw [hs, AList.lookup_insert, hc]
    exact .some h
  · rw [AList.lookup_insert_ne hs]
    exact channelStep_refl hash _

/-- Adding an HTLC is an operation of one channel. -/
theorem Pushed.channelsStep {hash : PaymentHash} {h : HopHtlc} {c : SimulatedChannel} {s : Side}
    {channels channels' : Channels} (hp : Pushed hash h c s channels channels') :
    ChannelsStep hash channels channels' := by
  rw [hp.result]
  exact channelsStep_insert hp.found (.push hp.accepts)

/-- Removing an HTLC is an operation of one channel. -/
theorem Popped.channelsStep {hash : PaymentHash} {h : HopHtlc} {success : Bool}
    {c : SimulatedChannel} {s : Side} {channels channels' : Channels}
    (hp : Popped hash h success c s channels channels') :
    ChannelsStep hash channels channels' := by
  rw [hp.result]
  exact channelsStep_insert hp.found (.pop success hp.entry)

/-- A step of a payment is at most one operation of one channel, under the payment's hash. -/
theorem Step.channelsStep {req : PropagatePaymentRequest} {channels channels' : Channels}
    {phase phase' : Phase} {events : List Event}
    (h : Step req channels phase events channels' phase') :
    ChannelsStep req.paymentHash channels channels' := by
  cases h.transition with
  | addCritical hhop hsame hsane => exact hsame.channelsStep _
  | addRefusedFirst hhop hsame hidx => exact hsame.channelsStep _
  | addRefused hhop hsame hidx => exact hsame.channelsStep _
  | forwardCritical hhop hpush hcheck => exact hpush.channelsStep
  | forwardRefused hhop hpush hcheck => exact hpush.channelsStep
  | added hhop hpush hcheck => exact hpush.channelsStep
  | removeCritical hhop hsame hsane hnone => exact hsame.channelsStep _
  | removedInsane hhop hpop hinsane => exact hpop.channelsStep
  | removed hhop hpop => exact hpop.channelsStep
  | interceptCritical | interceptRefusedFirst | interceptRefused | forwarded | received
  | notifyCritical | notified | removeNext | removedAll => exact (SameChannels.refl _).channelsStep _

/-- Operations keep the terms of a channel. -/
theorem ChannelStep.sameTerms {hash : PaymentHash} {c c' : SimulatedChannel}
    (h : ChannelStep hash c c') : c.SameTerms c' := by
  cases h with
  | same => exact .refl c
  | push hacc => exact c.sameTerms_pushHtlc _ _ _
  | pop success hentry => exact c.sameTerms_popHtlc _ _ _ _

/-- Operations keep the sum of a channel, as `u64` computes it. -/
theorem ChannelStep.balance {hash : PaymentHash} {c c' : SimulatedChannel}
    (h : ChannelStep hash c c') : c'.balance = c.balance := by
  cases h with
  | same => rfl
  | push hacc => exact SimulatedChannel.balance_pushHtlc _ hacc.fresh
  | pop success hentry => exact SimulatedChannel.balance_popHtlc hentry success

/-- Operations keep a sane channel sane. -/
theorem ChannelStep.sanityCheck {hash : PaymentHash} {c c' : SimulatedChannel}
    (h : ChannelStep hash c c') (hsane : c.sanityCheck = .ok ()) : c'.sanityCheck = .ok () := by
  rw [SimulatedChannel.sanityCheck_eq_ok] at hsane ⊢
  rw [h.balance, hsane, h.sameTerms.capacityMsat]

/-- Operations keep the exact sum where it fits into `u64`. -/
theorem ChannelStep.exactBalance {hash : PaymentHash} {c c' : SimulatedChannel}
    (h : ChannelStep hash c c') (hfit : c.exactBalance < 2 ^ 64) :
    c'.exactBalance = c.exactBalance := by
  cases h with
  | same => rfl
  | push hacc => exact SimulatedChannel.exactBalance_pushHtlc hacc.fresh hacc.balance
  | pop success hentry => exact SimulatedChannel.exactBalance_popHtlc hentry hfit success

/-! ## Whole runs -/

section Runs

variable {ι : Type} [DecidableEq ι] {reqs : ι → PropagatePaymentRequest}
  {w₀ w : World ι Channels Phase} {trace : List (ι × Event)}

/-- What a step preserves of a channel holds of it in every reachable state. -/
theorem channel_invariant {P : ShortChannelID → SimulatedChannel → Prop}
    (h : (payments reqs).Run w₀ trace w)
    (hstep : ∀ scid hash c c', ChannelStep hash c c' → P scid c → P scid c')
    (h₀ : ∀ scid c, w₀.shared.lookup scid = some c → P scid c) :
    ∀ scid c, w.shared.lookup scid = some c → P scid c := by
  refine h.shared_invariant (P := fun chs : Channels => ∀ scid c, chs.lookup scid = some c →
    P scid c) h₀ fun k chs phase es chs' phase' hs ih scid c' hc' => ?_
  have hrel := Step.channelsStep hs scid
  rw [hc'] at hrel
  cases hc : chs.lookup scid with
  | none =>
    rw [hc] at hrel
    cases hrel
  | some c =>
    rw [hc] at hrel
    cases hrel with
    | some hcs => exact hstep scid _ c c' hcs (ih scid c hc)

/-- `channels'` has the channels of `channels` at a later time. -/
def SameNetwork (channels channels' : Channels) : Prop :=
  ∀ scid, Option.Rel SimulatedChannel.SameTerms (channels.lookup scid) (channels'.lookup scid)

theorem SameNetwork.refl (channels : Channels) : SameNetwork channels channels := by
  intro scid
  cases channels.lookup scid with
  | none => exact .none
  | some c => exact .some (.refl c)

theorem optionRel_imp {α : Type} {R S : α → α → Prop} {a b : Option α} (h : Option.Rel R a b)
    (himp : ∀ x y, R x y → S x y) : Option.Rel S a b := by
  cases h with
  | none => exact .none
  | some hr => exact .some (himp _ _ hr)

theorem optionRel_comp {α : Type} {R S T : α → α → Prop} {a b c : Option α}
    (h : Option.Rel R a b) (h' : Option.Rel S b c) (hcomp : ∀ x y z, R x y → S y z → T x z) :
    Option.Rel T a c := by
  cases h with
  | none =>
    cases h'
    exact .none
  | some hr =>
    cases h' with
    | some hs => exact .some (hcomp _ _ _ hr hs)

/-- Payments leave the network as it is. -/
theorem ChannelsStep.sameNetwork {hash : PaymentHash} {channels channels' channels'' : Channels}
    (hnet : SameNetwork channels channels') (h : ChannelsStep hash channels' channels'') :
    SameNetwork channels channels'' := fun scid =>
  optionRel_comp (hnet scid) (h scid) fun _ _ _ hterms hstep => hterms.trans hstep.sameTerms

/-- No run opens or closes a channel or changes its terms. -/
theorem run_sameNetwork (h : (payments reqs).Run w₀ trace w) :
    SameNetwork w₀.shared w.shared :=
  h.shared_invariant (SameNetwork.refl _) fun _ _ _ _ _ _ hs hnet =>
    (Step.channelsStep hs).sameNetwork hnet

theorem exists_of_rel_some {α : Type} {R : α → α → Prop} {a : α} {o : Option α}
    (h : Option.Rel R (some a) o) : ∃ b, o = some b ∧ R a b := by
  cases h with
  | some h => exact ⟨_, rfl, h⟩

theorem exists_of_some_rel {α : Type} {R : α → α → Prop} {b : α} {o : Option α}
    (h : Option.Rel R o (some b)) : ∃ a, o = some a ∧ R a b := by
  cases h with
  | some h => exact ⟨_, rfl, h⟩

/-- A channel of the network stays there, with its terms. -/
theorem SameNetwork.lookup {channels channels' : Channels} (h : SameNetwork channels channels')
    {scid : ShortChannelID} {c : SimulatedChannel} (hc : channels.lookup scid = some c) :
    ∃ c', channels'.lookup scid = some c' ∧ c.SameTerms c' :=
  exists_of_rel_some (hc ▸ h scid)

/-- A channel that is there has been there, with its terms. -/
theorem SameNetwork.lookup' {channels channels' : Channels} (h : SameNetwork channels channels')
    {scid : ShortChannelID} {c' : SimulatedChannel} (hc : channels'.lookup scid = some c') :
    ∃ c, channels.lookup scid = some c ∧ c.SameTerms c' :=
  exists_of_some_rel (hc ▸ h scid)

end Runs
end SimLn
