import SimLn.Payment.Control

/-!
# SimLn — what the index of a failure says

A failed payment reports the last hop whose HTLC it had added. The hops up to there are those on
which it had added one, so that the index determines them (`Log.addedHops_eq`). Zero is reported too if
the first HTLC is refused and there is no such hop.
-/

namespace SimLn

open Lib

/-- The hops on which the payment has added an HTLC, first to last. -/
def addedHops (past : List Event) : List Nat := (added past).map (·.hop)

/-- They are the first hops of the path. -/
theorem Log.addedHops_eq {req : PropagatePaymentRequest} {past : List Event} (h : Log req past) :
    addedHops past = List.range (added past).length := by
  unfold addedHops
  refine List.ext_getElem? fun i => ?_
  rw [List.getElem?_map]
  by_cases hi : i < (added past).length
  · obtain ⟨hon, -⟩ := h.addedAt i _ (List.getElem?_eq_getElem hi)
    rw [List.getElem?_eq_getElem hi, List.getElem?_range hi, Option.map_some, hon.hop]
  · rw [List.getElem?_eq_none (by omega), List.getElem?_eq_none (by simp; omega)]
    rfl

section Runs

variable {ι ι' : Type} [DecidableEq ι] [DecidableEq ι'] {reqs : ι → PropagatePaymentRequest}
  {reqs' : ι' → PropagatePaymentRequest} {channels channels' : Channels}
  {trace : List (ι × Event)} {trace' : List (ι' × Event)} {w : World ι Channels Phase}
  {w' : World ι' Channels Phase} {k : ι} {k' : ι'} {n : Nat}

/-- The index is that of the last hop, or zero if there is none. -/
theorem addedHops_of_indexFailure (h : PaymentRun reqs channels trace w)
    (hfailed : w.proc k = .finished ⟨0, .indexFailure n⟩) :
    addedHops (eventsOf k trace) = List.range (n + 1) ∨
      (addedHops (eventsOf k trace) = [] ∧ n = 0) := by
  have hcontrol := run_control h k
  rw [hfailed] at hcontrol
  rw [hcontrol.log.addedHops_eq]
  have hreported : Reported (reqs k) (eventsOf k trace) ⟨0, .indexFailure n⟩ := hcontrol.phase
  cases hreported with
  | failure hflags hresolved =>
    cases hlength : (added (eventsOf k trace)).length with
    | zero => exact .inr ⟨rfl, rfl⟩
    | succ m => exact .inl rfl

/-- **What the index says.** Two payments that report the same index have added HTLCs on the same
hops, if both or neither of them have added the first one. Only the index zero leaves that open. -/
theorem indexFailure_hops (h : PaymentRun reqs channels trace w)
    (h' : PaymentRun reqs' channels' trace' w')
    (hfailed : w.proc k = .finished ⟨0, .indexFailure n⟩)
    (hfailed' : w'.proc k' = .finished ⟨0, .indexFailure n⟩) :
    (addedHops (eventsOf k trace) = addedHops (eventsOf k' trace') ↔
        (addedHops (eventsOf k trace) = [] ↔ addedHops (eventsOf k' trace') = [])) ∧
      (n ≠ 0 → addedHops (eventsOf k trace) = addedHops (eventsOf k' trace')) ∧
      (addedHops (eventsOf k trace) ≠ [] →
        (addedHops (eventsOf k trace)).getLast? = some n) := by
  have hne : List.range (n + 1) ≠ [] := by simp
  rcases addedHops_of_indexFailure h hfailed with heq | ⟨heq, hn⟩
  · rcases addedHops_of_indexFailure h' hfailed' with heq' | ⟨heq', hn'⟩
    · rw [heq, heq']
      refine ⟨by simp, fun _ => rfl, fun _ => ?_⟩
      rw [List.range_succ, List.getLast?_concat]
    · rw [heq, heq']
      refine ⟨by simp, fun hpos => absurd hn' hpos, fun _ => ?_⟩
      rw [List.range_succ, List.getLast?_concat]
  · rcases addedHops_of_indexFailure h' hfailed' with heq' | ⟨heq', -⟩
    · rw [heq, heq']
      exact ⟨by simp, fun hpos => absurd hn hpos, fun hnonempty => absurd rfl hnonempty⟩
    · rw [heq, heq']
      exact ⟨by simp, fun _ => rfl, fun hnonempty => absurd rfl hnonempty⟩

end Runs

/-! ## Two failures of one path with the index one -/

def dave : PublicKey := ⟨4⟩

/-- A payment over three channels, with the fees that are asked for in `threeNodes`. -/
def aliceToDave : PropagatePaymentRequest :=
  { aliceToCarol ⟨1⟩ with
    route := ⟨[⟨bob, 700, 30, 40⟩, ⟨carol, 800, 30, 40⟩, ⟨dave, 900, 20000, 18⟩], by simp⟩ }

/-- Carol forwards to Dave with this base fee. -/
def fourNodes (baseFee : UInt64) : Channels :=
  threeNodes.insert ⟨900⟩ <|
    .new 100000 ⟨900⟩ { samplePolicy carol with baseFee } (samplePolicy dave) false

/-- Carol asks for a higher fee than she is left with. -/
theorem expensiveCarol_fails : ∃ trace w,
    PaymentRun (fun _ : Unit => aliceToDave) (fourNodes 20) trace w ∧
      w.proc () = .finished ⟨0, .indexFailure 1⟩ ∧ addedHops (eventsOf () trace) = [0, 1] := by
  have h : PaymentRun (fun _ : Unit => aliceToDave) (fourNodes 20) _ _ := .refl
  have h := h.step () (.add rfl)
  have h := h.step () (.intercept [] none rfl rfl)
  have h := h.step () (.add rfl)
  have h := h.step () (.remove rfl)
  have h := h.step () (.advance rfl)
  have h := h.step () (.remove rfl)
  exact ⟨_, _, h.step () (.advance rfl), rfl, rfl⟩

/-- The same payment with an interceptor, which refuses the HTLC that Carol is offered. -/
def watchedToDave : PropagatePaymentRequest := { aliceToDave with interceptors := [⟨"watcher"⟩] }

/-- Where Carol would forward the payment, the interceptor makes it fail at the same index, with HTLCs on the
same hops. -/
theorem indexFailure_hops_watchedToDave : ∃ trace w,
    PaymentRun (fun _ : Unit => watchedToDave) (fourNodes 10) trace w ∧
      w.proc () = .finished ⟨0, .indexFailure 1⟩ ∧ addedHops (eventsOf () trace) = [0, 1] := by
  have h : PaymentRun (fun _ : Unit => watchedToDave) (fourNodes 10) _ _ := .refl
  have h := h.step () (.add rfl)
  have h := h.step () (.intercept [.ok (.ok (.ok ∅))] none rfl rfl)
  have h := h.step () (.add rfl)
  have h := h.step () (.intercept [.ok (.ok (.error (.interceptorError "no")))] none rfl rfl)
  have h := h.step () (.remove rfl)
  have h := h.step () (.notify (.ok ()) Nat.one_pos)
  have h := h.step () (.advance rfl)
  have h := h.step () (.remove rfl)
  have h := h.step () (.notify (.ok ()) Nat.one_pos)
  have h := h.step () (.advance rfl)
  obtain ⟨trace, w, hrun, hfailed, hhops⟩ := expensiveCarol_fails
  refine ⟨_, _, h, rfl, ?_⟩
  rw [← hhops]
  exact (indexFailure_hops h hrun rfl hfailed).2.1 Nat.one_ne_zero

/-! ## Two failures of one path with the index zero -/

/-- Alice asks for HTLCs of at least 30000 msat, so that hers is refused. -/
def reluctantAlice : SimulatedChannel :=
  .new 100000 ⟨700⟩ { samplePolicy alice with minHtlcSizeMsat := 30000 } (samplePolicy bob) false

/-- Bob asks for a higher fee than he is left with. -/
def expensiveBob : SimulatedChannel :=
  .new 100000 ⟨800⟩ { samplePolicy bob with baseFee := 20 } (samplePolicy carol) false

def reluctantNodes : Channels := ((∅ : Channels).insert ⟨700⟩ reluctantAlice).insert ⟨800⟩ bobCarol

def expensiveNodes : Channels := ((∅ : Channels).insert ⟨700⟩ aliceBob).insert ⟨800⟩ expensiveBob

theorem reluctantAlice_fails : ∃ trace w,
    PaymentRun (fun _ : Unit => aliceToCarol ⟨1⟩) reluctantNodes trace w ∧
      w.proc () = .finished ⟨0, .indexFailure 0⟩ ∧ addedHops (eventsOf () trace) = [] := by
  have h1 : PaymentRun (fun _ : Unit => aliceToCarol ⟨1⟩) reluctantNodes _ _ :=
    PaymentRun.step .refl () (.add rfl)
  exact ⟨_, _, h1, rfl, rfl⟩

theorem expensiveBob_fails : ∃ trace w,
    PaymentRun (fun _ : Unit => aliceToCarol ⟨1⟩) expensiveNodes trace w ∧
      w.proc () = .finished ⟨0, .indexFailure 0⟩ ∧ addedHops (eventsOf () trace) = [0] := by
  have h1 : PaymentRun (fun _ : Unit => aliceToCarol ⟨1⟩) expensiveNodes _ _ :=
    PaymentRun.step .refl () (.add rfl)
  have h2 := h1.step () (.remove rfl)
  exact ⟨_, _, h2.step () (.advance rfl), rfl, rfl⟩

/-- One path, one index: in one run no HTLC has been added, in the other one that of the first hop. -/
theorem indexFailure_zero_ambiguous : ∃ trace w trace' w',
    PaymentRun (fun _ : Unit => aliceToCarol ⟨1⟩) reluctantNodes trace w ∧
      PaymentRun (fun _ : Unit => aliceToCarol ⟨1⟩) expensiveNodes trace' w' ∧
      w.proc () = .finished ⟨0, .indexFailure 0⟩ ∧ w'.proc () = .finished ⟨0, .indexFailure 0⟩ ∧
      addedHops (eventsOf () trace) = [] ∧ addedHops (eventsOf () trace') = [0] := by
  obtain ⟨trace, w, hrun, hfailed, hhops⟩ := reluctantAlice_fails
  obtain ⟨trace', w', hrun', hfailed', hhops'⟩ := expensiveBob_fails
  exact ⟨trace, w, trace', w', hrun, hrun', hfailed, hfailed', hhops, hhops'⟩

end SimLn
