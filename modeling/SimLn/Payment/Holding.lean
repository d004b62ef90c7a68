import SimLn.Payment.Ownership

/-!
# SimLn — whose HTLC is found

`Owned` follows one payment and needs the hashes to be distinct. Without that, payments can share a
hash, but a channel refuses a second HTLC under it on one side, so an entry still belongs to one
payment (`Holding.exclusive`). What a payment finds under its hash when it removes the HTLC of a
hop is therefore the one it added there, in every run (`Holding.removes`), and no channel that it
uses fails its sanity check then.
-/

namespace SimLn

open Lib

/-! ## The effect of a step on sane channels -/

/-- The effect of a step on the channels, when those that the payment has used pass their sanity
check. -/
inductive Exchanged (req : PropagatePaymentRequest) (channels : Channels) (es : List Event)
    (channels' : Channels) : Prop where
  | nothing (hsame : SameChannels channels channels') (hadded : added es = [])
      (hremoved : removed es = [])
  | pushed {x : HopHtlc} {c : SimulatedChannel} {s : Side}
      (hpush : Pushed req.paymentHash x c s channels channels') (hadded : added es = [x])
      (hremoved : removed es = [])
  | popped {x : HopHtlc} {success : Bool} {c : SimulatedChannel} {s : Side}
      (hpop : Popped req.paymentHash x success c s channels channels') (hadded : added es = [])
      (hremoved : removed es = [(x, success)])

section Step

variable {req : PropagatePaymentRequest} {channels channels' : Channels} {past es : List Event}
  {phase phase' : Phase}

/-- The hop that `remove_htlcs` has come to has an HTLC of the payment. -/
theorem Control.added_of_removing {loop : RemoveLoop} {hop : RouteHop}
    (hc : Control req past (.removing loop)) (hhop : req.route.hops[loop.i]? = some hop) :
    ∃ y ∈ added past, y.ref.channelId = hop.scid := by
  have hat : loop.At req past (loop.i + 1) := hc.phase
  have hleft := hat.left
  have hlt : loop.i < (added past).length := by omega
  obtain ⟨hon, -⟩ := hc.log.addedAt loop.i _ (List.getElem?_eq_getElem hlt)
  obtain ⟨hop', hhop', hid⟩ := hon.channel
  obtain rfl := Option.some.inj (hhop.symm.trans hhop')
  exact ⟨_, List.getElem_mem hlt, hid⟩

theorem Step.exchanged (hs : Step req channels phase es channels' phase')
    (hc : Control req past phase)
    (hsane : ∀ x ∈ added past, ∀ c, channels.lookup x.ref.channelId = some c →
      c.sanityCheck = .ok ()) : Exchanged req channels es channels' := by
  have hmoved := hs.moved
  cases hs.transition with
  | removedInsane hhop hpop hinsane =>
    obtain ⟨y, hy, hid⟩ := hc.added_of_removing hhop
    exact absurd (hsane y hy _ (hid ▸ hpop.found)) hinsane
  | addCritical _ hsame | addRefusedFirst _ hsame | addRefused _ hsame | removeCritical _ hsame =>
    exact .nothing hsame rfl rfl
  | forwardCritical hhop hpush | forwardRefused hhop hpush => exact .pushed hpush rfl rfl
  | added hhop hpush =>
    refine .pushed hpush ?_ ?_
    · rw [← List.singleton_append, added_append, added_map_intercepted]
      rfl
    · rw [← List.singleton_append, removed_append, removed_map_intercepted]
      rfl
  | removed hhop hpop => exact .popped hpop rfl rfl
  | interceptCritical | interceptRefusedFirst | interceptRefused | forwarded | received
  | notifyCritical | notified | removeNext | removedAll => exact .nothing (.refl _) rfl rfl

/-- An HTLC that is held is the one of its hop, and the hops held are the first ones. -/
theorem Log.hop_lt_of_held (h : Log req past) {x : HopHtlc} (hx : x ∈ held past) :
    x.hop < (held past).length := by
  obtain ⟨j, hj⟩ := List.mem_iff_getElem?.mp hx
  have hlt := (List.getElem?_eq_some_iff.mp hj).1
  rw [held, List.getElem?_take_of_lt (by simp [held] at hlt; omega)] at hj
  rwa [(h.addedAt j x hj).1.hop]

end Step

/-! ## What all payments hold -/

/-- What payments with the logs `pasts` hold, all together. -/
structure Holding {ι : Type} (reqs : ι → PropagatePaymentRequest) (channels : Channels)
    (pasts : ι → List Event) (shared : Channels) : Prop where
  /-- An HTLC that a payment holds is found where it was added. -/
  inFlight : ∀ k, ∀ x ∈ held (pasts k), ∃ p, x.place channels = some p ∧
    entryAt shared p (reqs k).paymentHash = some (x.htlc, x.ref.index)
  /-- No two HTLCs that are held have the same place and hash. -/
  exclusive : ∀ j k x y, x ∈ held (pasts j) → y ∈ held (pasts k) →
    (reqs j).paymentHash = (reqs k).paymentHash → x.place channels = y.place channels →
    j = k ∧ x = y
  removes : ∀ k x success, (x, success) ∈ removed (pasts k) → x ∈ added (pasts k)
  /-- The channels that payments have used pass their sanity check. -/
  sane : ∀ k, ∀ x ∈ added (pasts k), ∀ c, shared.lookup x.ref.channelId = some c →
    c.sanityCheck = .ok ()

namespace Holding

variable {ι : Type} {reqs : ι → PropagatePaymentRequest} {channels shared shared' : Channels}
  {pasts pasts' : ι → List Event} {k : ι} {es : List Event} {phase phase' : Phase}

theorem start : Holding reqs channels (fun _ => []) channels := by
  constructor <;> simp [held, added, removed]

/-- A step that moves no HTLC. -/
theorem silent (h : Holding reqs channels pasts shared) (hsame : SameChannels shared shared')
    (hadded : ∀ j, added (pasts' j) = added (pasts j))
    (hremoved : ∀ j, removed (pasts' j) = removed (pasts j)) :
    Holding reqs channels pasts' shared' := by
  have hheld : ∀ j, held (pasts' j) = held (pasts j) := fun j => by
    rw [held, held, hadded, hremoved]
  constructor
  · intro j x hx
    obtain ⟨p, hp, hentry⟩ := h.inFlight j x (hheld j ▸ hx)
    exact ⟨p, hp, (hsame.entryAt p _).trans hentry⟩
  · intro i j x y hx hy
    exact h.exclusive i j x y (hheld i ▸ hx) (hheld j ▸ hy)
  · intro j x success hx
    rw [hadded]
    exact h.removes j x success (hremoved j ▸ hx)
  · intro j x hx c hc
    rw [hsame] at hc
    exact h.sane j x (hadded j ▸ hx) c hc

theorem push {x : HopHtlc} {c : SimulatedChannel} {s : Side}
    (h : Holding reqs channels pasts shared) (hnet : SameNetwork channels shared)
    (hpush : Pushed (reqs k).paymentHash x c s shared shared')
    (hself : pasts' k = pasts k ++ es) (hother : ∀ j, j ≠ k → pasts' j = pasts j)
    (hadded : added es = [x]) (hremoved : removed es = []) (hnone : removed (pasts k) = []) :
    Holding reqs channels pasts' shared' := by
  have hplace : x.place channels = some (x.ref.channelId, s) :=
    (hnet.place x).symm.trans hpush.place
  -- the place was free, so nobody held an HTLC there under this hash
  have hfree : ∀ j, ∀ y ∈ held (pasts j), (reqs j).paymentHash = (reqs k).paymentHash →
      y.place channels ≠ x.place channels := by
    intro j y hy hhash heq
    obtain ⟨p, hp, hentry⟩ := h.inFlight j y hy
    rw [heq, hplace] at hp
    rw [hhash, ← Option.some.inj hp, hpush.fresh] at hentry
    cases hentry
  have hheld : ∀ j, ∀ y ∈ held (pasts' j), y ∈ held (pasts j) ∨ j = k ∧ y = x := by
    intro j y hy
    by_cases hj : j = k
    · subst hj
      rw [hself, held_of_added hnone hadded hremoved] at hy
      rcases List.mem_append.mp hy with hy | hy
      · exact .inl hy
      · exact .inr ⟨rfl, List.mem_singleton.mp hy⟩
    · exact .inl (hother j hj ▸ hy)
  have hstep := hpush.channelsStep
  constructor
  · intro j y hy
    rcases hheld j y hy with hy | ⟨rfl, rfl⟩
    · obtain ⟨p, hp, hentry⟩ := h.inFlight j y hy
      refine ⟨p, hp, (hpush.frame fun heq => ?_).trans hentry⟩
      obtain ⟨rfl, hhash⟩ := Prod.mk.inj heq
      exact hfree j y hy hhash (hp.trans hplace.symm)
    · exact ⟨_, hplace, hpush.entry⟩
  · intro i j y z hy hz hhash heq
    rcases hheld i y hy with hy | ⟨rfl, rfl⟩
    · rcases hheld j z hz with hz | ⟨rfl, rfl⟩
      · exact h.exclusive i j y z hy hz hhash heq
      -- one of the two is new: the place of the other cannot be the free one
      · exact absurd heq (hfree i y hy hhash)
    · rcases hheld j z hz with hz | ⟨rfl, rfl⟩
      · exact absurd heq.symm (hfree j z hz hhash.symm)
      · exact ⟨rfl, rfl⟩
  · intro j y success hy
    by_cases hj : j = k
    · subst hj
      rw [hself, removed_append, hnone, hremoved] at hy
      cases hy
    · rw [hother j hj] at hy ⊢
      exact h.removes j y success hy
  · intro j y hy
    have hy' : y ∈ added (pasts j) ∨ y = x := by
      by_cases hj : j = k
      · subst hj
        rw [hself, added_append, hadded] at hy
        rcases List.mem_append.mp hy with hy | hy
        · exact .inl hy
        · exact .inr (List.mem_singleton.mp hy)
      · exact .inl (hother j hj ▸ hy)
    rcases hy' with hy' | rfl
    · exact hstep.sane (h.sane j y hy')
    -- the channel was checked before it took the HTLC
    · refine hstep.sane fun d hd => ?_
      obtain rfl := Option.some.inj (hpush.found.symm.trans hd)
      exact hpush.accepts.sane

/-- What is popped is the HTLC that was added at the hop. -/
theorem popped_eq {x : HopHtlc} {success : Bool} {c : SimulatedChannel} {s : Side}
    (h : Holding reqs channels pasts shared) (hnet : SameNetwork channels shared)
    (hlog : Log (reqs k) (pasts k)) (hlog' : Log (reqs k) (pasts k ++ es))
    (hpop : Popped (reqs k).paymentHash x success c s shared shared')
    (hadded : added es = []) (hremoved : removed es = [(x, success)]) :
    held (pasts k) = held (pasts k ++ es) ++ [x] ∧ x.hop = (held (pasts k ++ es)).length ∧
      x ∈ added (pasts k) := by
  obtain ⟨i, hi, hxon⟩ := hlog'.removedAt (removed (pasts k)).length x success (by simp [hremoved])
  rw [added_append, hadded, List.append_nil] at hi
  -- the HTLC that was added at that hop, still held
  obtain ⟨y, hy, hheld⟩ := held_of_removed es hadded hremoved hi
  obtain ⟨hyon, -⟩ := hlog.addedAt i y hy
  have hplace : y.place channels = some (x.ref.channelId, s) :=
    (hyon.place_eq hxon channels).trans ((hnet.place x).symm.trans hpop.place)
  obtain ⟨p, hp, hentry⟩ := h.inFlight k y (by simp [hheld])
  rw [hplace] at hp
  rw [← Option.some.inj hp, hpop.entryAt] at hentry
  obtain ⟨hhtlc, hindex⟩ := Prod.mk.inj (Option.some.inj hentry)
  have hid : x.ref.channelId = y.ref.channelId := (place_eq_some.mp hplace).1.symm
  -- both are what the channel has under this hash
  have hxy : x = y := by
    ext1
    · rw [hxon.hop, hyon.hop]
    · rw [hxon.sender, hyon.sender]
    · exact HtlcRef.ext hid hindex
    · exact hhtlc
  have hlength : (held (pasts k)).length = i + 1 := by
    rw [held, List.length_take]
    omega
  rw [hheld, List.length_append, List.length_singleton] at hlength
  exact ⟨hxy ▸ hheld, by rw [hxon.hop]; omega, hxy ▸ List.mem_of_getElem? hy⟩

theorem pop {x : HopHtlc} {success : Bool} {c : SimulatedChannel} {s : Side}
    (h : Holding reqs channels pasts shared) (hnet : SameNetwork channels shared)
    (hlog : Log (reqs k) (pasts k)) (hlog' : Log (reqs k) (pasts k ++ es))
    (hpop : Popped (reqs k).paymentHash x success c s shared shared')
    (hself : pasts' k = pasts k ++ es) (hother : ∀ j, j ≠ k → pasts' j = pasts j)
    (hadded : added es = []) (hremoved : removed es = [(x, success)]) :
    Holding reqs channels pasts' shared' := by
  obtain ⟨hheld, hlast, hx⟩ := h.popped_eq hnet hlog hlog' hpop hadded hremoved
  have hplace : x.place channels = some (x.ref.channelId, s) :=
    (hnet.place x).symm.trans hpop.place
  -- nobody holds what was popped, and everybody else what they held before
  have hsub : ∀ j, ∀ y ∈ held (pasts' j), y ∈ held (pasts j) ∧ ¬(j = k ∧ y = x) := by
    intro j y hy
    by_cases hj : j = k
    · subst hj
      rw [hself] at hy
      refine ⟨by simp [hheld, hy], fun ⟨_, heq⟩ => ?_⟩
      have hlt := hlog'.hop_lt_of_held hy
      rw [heq, hlast] at hlt
      exact lt_irrefl _ hlt
    · rw [hother j hj] at hy
      exact ⟨hy, fun hk => hj hk.1⟩
  have hadded' : ∀ j, added (pasts' j) = added (pasts j) := by
    intro j
    by_cases hj : j = k
    · subst hj
      rw [hself, added_append, hadded, List.append_nil]
    · rw [hother j hj]
  constructor
  · intro j y hy
    obtain ⟨hy, hne⟩ := hsub j y hy
    obtain ⟨p, hp, hentry⟩ := h.inFlight j y hy
    refine ⟨p, hp, (hpop.frame fun heq => ?_).trans hentry⟩
    obtain ⟨rfl, hhash⟩ := Prod.mk.inj heq
    exact hne (h.exclusive j k y x hy (by simp [hheld]) hhash (hp.trans hplace.symm))
  · intro i j y z hy hz
    exact h.exclusive i j y z (hsub i y hy).1 (hsub j z hz).1
  · intro j y success' hy
    rw [hadded']
    by_cases hj : j = k
    · subst hj
      rw [hself, removed_append, hremoved] at hy
      rcases List.mem_append.mp hy with hy | hy
      · exact h.removes j y success' hy
      · obtain ⟨rfl, rfl⟩ := Prod.mk.inj (List.mem_singleton.mp hy)
        exact hx
    · rw [hother j hj] at hy
      exact h.removes j y success' hy
  · intro j y hy
    rw [hadded'] at hy
    exact hpop.channelsStep.sane (h.sane j y hy)

theorem step (h : Holding reqs channels pasts shared) (hnet : SameNetwork channels shared)
    (hcontrol : Control (reqs k) (pasts k) phase)
    (hs : Step (reqs k) shared phase es shared' phase')
    (hself : pasts' k = pasts k ++ es) (hother : ∀ j, j ≠ k → pasts' j = pasts j) :
    Holding reqs channels pasts' shared' := by
  have hcontrol' := hs.control hcontrol
  cases hs.exchanged hcontrol (h.sane k) with
  | nothing hsame hadded hremoved =>
    refine h.silent hsame (fun j => ?_) fun j => ?_
    · by_cases hj : j = k
      · subst hj
        simp [hself, hadded]
      · rw [hother j hj]
    · by_cases hj : j = k
      · subst hj
        simp [hself, hremoved]
      · rw [hother j hj]
  | @pushed x _ _ hpush hadded hremoved =>
    have hnone := hcontrol'.log.nothing_removed (x := x) (by simp [hadded])
    exact h.push hnet hpush hself hother hadded hremoved hnone
  | popped hpop hadded hremoved =>
    exact h.pop hnet hcontrol.log hcontrol'.log hpop hself hother hadded hremoved

end Holding

/-- In every run each payment holds what it has added and not removed, whatever the hashes. -/
theorem run_holding {ι : Type} [DecidableEq ι] {reqs : ι → PropagatePaymentRequest}
    {channels : Channels} {trace : List (ι × Event)} {w : World ι Channels Phase}
    (h : PaymentRun reqs channels trace w) :
    Holding reqs channels (fun k => eventsOf k trace) w.shared := by
  induction h with
  | refl => exact .start
  | @tail trace w k es shared next hrun hstep ih =>
    refine ih.step (k := k) (run_sameNetwork hrun) (run_control hrun k) hstep ?_ fun j hj => ?_
    · rw [eventsOf_append, eventsOf_map_self]
    · rw [eventsOf_append, eventsOf_map_of_ne (Ne.symm hj), List.append_nil]

end SimLn
