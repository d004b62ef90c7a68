import SimLn.Payment

/-!
# SimLn — the answers of interceptors

`handle_intercepted_htlc` reads the answers of the interceptors in the order in which they complete.
What it returns is classified by `Collected`, which does not mention the order; a shutdown signal
cuts the answers that are read short (`collectAnswers_some`). So the outcome is the same for every
order (`handleInterceptedHtlc_answers`), and a refusal can be lost only to the signal
(`interception_closed_iff`).
-/

namespace SimLn

open Lib

/-- The answer of an interceptor's task: an error if the task itself failed. -/
abbrev Answer := Except String InterceptResult

def Answer.records? : Answer → Option CustomRecords
  | .ok (.ok (.ok records)) => some records
  | _ => none

/-- The interceptor, or its task, failed critically. -/
def Answer.IsCritical (answer : Answer) : Prop :=
  (∃ msg, answer = .error msg) ∨ ∃ err, answer = .ok (.error err)

/-- The interceptor refused the HTLC. -/
def Answer.IsRefusal (answer : Answer) : Prop := ∃ fwdErr, answer = .ok (.ok (.error fwdErr))

/-- The records that interceptors returned. -/
def recordsOf (answers : List Answer) : List CustomRecords := answers.filterMap Answer.records?

/-! ## Merging records -/

/-- A merge that goes through holds the records attached before and the new ones. -/
theorem mergeRecords_ok {es : List (Sigma fun _ : UInt64 => List UInt8)}
    {attached merged : CustomRecords} (h : mergeRecords es attached = .ok merged) (k : UInt64)
    (v : List UInt8) : merged.lookup k = some v ↔ attached.lookup k = some v ∨ ⟨k, v⟩ ∈ es := by
  induction es generalizing attached with
  | nil =>
    obtain rfl := Except.ok.inj h
    simp
  | cons e es ih =>
    obtain ⟨k', v'⟩ := e
    rw [mergeRecords] at h
    cases hk : attached.lookup k' with
    | some existing =>
      rw [hk] at h
      by_cases hne : existing ≠ v'
      · simp [hne] at h
      · -- the key is there already, with this value
        obtain rfl : existing = v' := not_not.mp hne
        simp only [ne_eq, not_true_eq_false, if_false] at h
        -- the entry adds nothing that was not attached
        have hhead : (⟨k, v⟩ : Sigma fun _ : UInt64 => List UInt8) = ⟨k', existing⟩ →
            attached.lookup k = some v := by
          rintro heq
          cases heq
          exact hk
        rw [ih h, List.mem_cons, ← or_assoc, or_iff_left_of_imp hhead]
    | none =>
      rw [hk] at h
      rw [ih h, Table.lookup_insert_fresh _ hk, List.mem_cons, or_assoc]

/-- Merging fails on a key that has another value already. -/
theorem mergeRecords_error {es : List (Sigma fun _ : UInt64 => List UInt8)}
    {attached : CustomRecords} {err : CriticalError} (hnodup : es.NodupKeys)
    (h : mergeRecords es attached = .error err) :
    ∃ k v v', attached.lookup k = some v ∧ ⟨k, v'⟩ ∈ es ∧ v ≠ v' := by
  induction es generalizing attached with
  | nil => cases h
  | cons e es ih =>
    obtain ⟨k', v'⟩ := e
    obtain ⟨hfresh, hrest⟩ := List.nodupKeys_cons.mp hnodup
    rw [mergeRecords] at h
    cases hk : attached.lookup k' with
    | some existing =>
      rw [hk] at h
      by_cases hne : existing ≠ v'
      · exact ⟨k', existing, v', hk, .head _, hne⟩
      · simp only [hne, if_false] at h
        obtain ⟨k, v, v'', hv, hmem, hconflict⟩ := ih hrest h
        exact ⟨k, v, v'', hv, .tail _ hmem, hconflict⟩
    | none =>
      rw [hk] at h
      obtain ⟨k, v, v'', hv, hmem, hconflict⟩ := ih hrest h
      -- a key stands once in a table, so the conflict is not with what was just inserted
      have hkk : k ≠ k' := by
        rintro rfl
        have hkey := List.mem_keys_of_mem hmem
        exact hfresh hkey
      rw [AList.lookup_insert_ne hkk] at hv
      exact ⟨k, v, v'', hv, .tail _ hmem, hconflict⟩

/-- Merging a table gives its union with what was attached, and fails only if the two disagree. -/
theorem mergeRecords_isUnion {records attached merged : CustomRecords}
    (h : mergeRecords records.entries attached = .ok merged) :
    Table.IsUnion merged [attached, records] := by
  intro k v
  rw [mergeRecords_ok h, Table.provides_cons, Table.provides_singleton, ← AList.mem_lookup_iff,
    Option.mem_def]

/-- A merge fails only over two values of one key. -/
theorem mergeRecords_disagree {records attached : CustomRecords} {err : CriticalError}
    (h : mergeRecords records.entries attached = .error err) (rest : List CustomRecords) :
    ¬ Table.Agree (attached :: records :: rest) := by
  obtain ⟨k, v, v', hv, hmem, hne⟩ := mergeRecords_error records.nodupKeys h
  intro hagree
  refine hne (hagree k v v' ⟨attached, .head _, hv⟩ ⟨records, .tail _ (.head _), ?_⟩)
  exact AList.mem_lookup_iff.mpr hmem

/-! ## What the loop returns -/

/-- The results that answers lead to when `attached` and `failure` have been collected before. -/
inductive Collected (answers : List Answer) (attached : CustomRecords)
    (failure : Option ForwardingError) : InterceptResult → Prop where
  | critical {err : CriticalError}
      (h : (∃ a ∈ answers, a.IsCritical) ∨ ¬ Table.Agree (attached :: recordsOf answers)) :
      Collected answers attached failure (.error err)
  | refused {fwdErr : ForwardingError} (hnone : ∀ a ∈ answers, ¬ a.IsCritical)
      (hagree : Table.Agree (attached :: recordsOf answers))
      (h : failure ≠ none ∨ ∃ a ∈ answers, a.IsRefusal) :
      Collected answers attached failure (.ok (.error fwdErr))
  | merged {records : CustomRecords} (hnone : ∀ a ∈ answers, ¬ a.IsCritical)
      (hunion : Table.IsUnion records (attached :: recordsOf answers))
      (hfailure : failure = none) (haccept : ∀ a ∈ answers, ¬ a.IsRefusal) :
      Collected answers attached failure (.ok (.ok records))

section Collect

variable {answers rest : List Answer} {attached merged records : CustomRecords}
  {failure : Option ForwardingError} {fwdErr : ForwardingError} {result : InterceptResult}

/-- A refusal is remembered. -/
theorem Collected.refusal (h : Collected rest attached (some fwdErr) result) :
    Collected (.ok (.ok (.error fwdErr)) :: rest) attached failure result := by
  have hhead : ¬ Answer.IsCritical (.ok (.ok (.error fwdErr))) := by
    rintro (⟨msg, heq⟩ | ⟨err, heq⟩) <;> cases heq
  cases h with
  | critical h => exact .critical (h.imp_left fun ⟨a, ha, hcritical⟩ => ⟨a, .tail _ ha, hcritical⟩)
  | refused hnone hagree _ =>
    exact .refused (List.forall_mem_cons.mpr ⟨hhead, hnone⟩) hagree
      (.inr ⟨_, .head _, fwdErr, rfl⟩)
  | merged _ _ hfailure _ => cases hfailure

/-- Records are merged into those attached. -/
theorem Collected.accept (hmerged : Table.IsUnion merged [attached, records])
    (h : Collected rest merged failure result) :
    Collected (.ok (.ok (.ok records)) :: rest) attached failure result := by
  have hcritical : ¬ Answer.IsCritical (.ok (.ok (.ok records))) := by
    rintro (⟨msg, heq⟩ | ⟨err, heq⟩) <;> cases heq
  have hrefusal : ¬ Answer.IsRefusal (.ok (.ok (.ok records))) := by
    rintro ⟨err, heq⟩
    cases heq
  have hagrees : Table.Agree (merged :: recordsOf rest) ↔
      Table.Agree (attached :: records :: recordsOf rest) :=
    Table.agree_congr hmerged.provides_cons_cons
  cases h with
  | critical h =>
    refine .critical (h.imp (fun ⟨a, ha, hcritical⟩ => ⟨a, .tail _ ha, hcritical⟩) ?_)
    exact fun hdisagree hagree => hdisagree (hagrees.mpr hagree)
  | refused hnone hagree h =>
    refine .refused (List.forall_mem_cons.mpr ⟨hcritical, hnone⟩) (hagrees.mp hagree) ?_
    exact h.imp_right fun ⟨a, ha, hrefused⟩ => ⟨a, .tail _ ha, hrefused⟩
  | merged hnone hunion hfailure haccept =>
    exact .merged (List.forall_mem_cons.mpr ⟨hcritical, hnone⟩)
      ((Table.isUnion_congr hmerged.provides_cons_cons).mp hunion) hfailure
      (List.forall_mem_cons.mpr ⟨hrefusal, haccept⟩)

end Collect

/-- The loop, without a shutdown signal. Induction on the answers that are left. -/
theorem collectAnswers_collected (answers : List Answer) (attached : CustomRecords)
    (failure : Option ForwardingError) :
    Collected answers attached failure (collectAnswers answers none attached failure) := by
  induction answers generalizing attached failure with
  | nil =>
    rw [collectAnswers]
    cases failure with
    | none =>
      exact .merged (by simp) (Table.isUnion_singleton attached) rfl (by simp)
    | some fwdErr =>
      exact .refused (by simp) (Table.agree_singleton attached) (.inl (by simp))
  | cons answer rest ih =>
    match answer with
    | .error msg => exact .critical (.inl ⟨_, .head _, .inl ⟨msg, rfl⟩⟩)
    | .ok (.error err) => exact .critical (.inl ⟨_, .head _, .inr ⟨err, rfl⟩⟩)
    | .ok (.ok (.error fwdErr)) => exact (ih attached (some fwdErr)).refusal
    | .ok (.ok (.ok records)) =>
      simp only [collectAnswers, Option.map_none]
      -- records go on being merged after a refusal, so that a conflict is still found
      cases hmerge : mergeRecords records.entries attached with
      | error err => exact .critical (.inr (mergeRecords_disagree hmerge _))
      | ok merged => exact (ih merged failure).accept (mergeRecords_isUnion hmerge)

/-- A shutdown signal cuts the answers short that the loop reads. Induction on the answers. -/
theorem collectAnswers_some (answers : List Answer) (n : Nat) (attached : CustomRecords)
    (failure : Option ForwardingError) :
    collectAnswers answers (some n) attached failure
      = collectAnswers (answers.take n) none attached failure := by
  induction answers generalizing n attached failure with
  | nil => rw [List.take_nil, collectAnswers, collectAnswers]
  | cons answer rest ih =>
    cases n with
    | zero => rw [List.take_zero, collectAnswers, collectAnswers]
    | succ n =>
      rw [List.take_succ_cons]
      match answer with
      | .error msg | .ok (.error err) => simp only [collectAnswers]
      | .ok (.ok (.error fwdErr)) =>
        simp only [collectAnswers, Option.map_some, Option.map_none, Nat.add_sub_cancel, ih]
      | .ok (.ok (.ok records)) =>
        simp only [collectAnswers, Option.map_some, Option.map_none, Nat.add_sub_cancel, ih]

/-! ## The order of the answers -/

/-- The answers make the HTLC fail critically: one of them does, or the records that were returned
do not agree. -/
def Critical (answers : List Answer) : Prop :=
  (∃ a ∈ answers, a.IsCritical) ∨ ¬ Table.Agree (recordsOf answers)

/-- Two results of the same kind, with the same records if there are any. -/
inductive SameOutcome : InterceptResult → InterceptResult → Prop where
  | critical {err err' : CriticalError} : SameOutcome (.error err) (.error err')
  | refused {err err' : ForwardingError} : SameOutcome (.ok (.error err)) (.ok (.error err'))
  | merged {records records' : CustomRecords} (h : ∀ k, records.lookup k = records'.lookup k) :
      SameOutcome (.ok (.ok records)) (.ok (.ok records'))

section Outcome

variable {request : InterceptRequest} {interceptors : List Interceptor}
  {answers answers' : List Answer} {result result' : InterceptResult} {shutdown : Option Nat}

/-- What `Collected` says when nothing has been collected before. -/
inductive Outcome (answers : List Answer) : InterceptResult → Prop where
  | critical {err : CriticalError} (h : Critical answers) : Outcome answers (.error err)
  | refused {fwdErr : ForwardingError} (hnone : ¬ Critical answers)
      (h : ∃ a ∈ answers, a.IsRefusal) : Outcome answers (.ok (.error fwdErr))
  | merged {records : CustomRecords} (hnone : ¬ Critical answers)
      (haccept : ∀ a ∈ answers, ¬ a.IsRefusal)
      (hunion : Table.IsUnion records (recordsOf answers)) : Outcome answers (.ok (.ok records))

/-- Answers collected from the start have the outcome that they determine. -/
theorem Collected.outcome (h : Collected answers ∅ none result) : Outcome answers result := by
  have hagrees : Table.Agree (∅ :: recordsOf answers) ↔ Table.Agree (recordsOf answers) :=
    Table.agree_congr fun _ _ => Table.provides_empty
  have hcritical : (∀ a ∈ answers, ¬ a.IsCritical) → Table.Agree (recordsOf answers) →
      ¬ Critical answers := by
    rintro hnone hagree (⟨a, ha, hcritical⟩ | hdisagree)
    · exact hnone a ha hcritical
    · exact hdisagree hagree
  cases h with
  | critical h => exact .critical (h.imp_right fun hdisagree hagree => hdisagree (hagrees.mpr hagree))
  | refused hnone hagree h =>
    exact .refused (hcritical hnone (hagrees.mp hagree)) (h.resolve_left fun hne => hne rfl)
  | merged hnone hunion _ haccept =>
    exact .merged (hcritical hnone (hagrees.mp hunion.agree)) haccept
      ((Table.isUnion_congr fun _ _ => Table.provides_empty).mp hunion)

/-- An outcome does not depend on the order. -/
theorem Outcome.perm (h : Outcome answers result) (hperm : answers.Perm answers') :
    Outcome answers' result := by
  have hrecords : (recordsOf answers).Perm (recordsOf answers') := hperm.filterMap _
  have hcritical : Critical answers ↔ Critical answers' := by
    simp only [Critical, hperm.mem_iff, Table.agree_perm hrecords]
  cases h with
  | critical h => exact .critical (hcritical.mp h)
  | refused hnone h =>
    obtain ⟨a, ha, hrefusal⟩ := h
    exact .refused (fun h => hnone (hcritical.mpr h)) ⟨a, hperm.mem_iff.mp ha, hrefusal⟩
  | merged hnone haccept hunion =>
    exact .merged (fun h => hnone (hcritical.mpr h)) (fun a ha => haccept a (hperm.mem_iff.mpr ha))
      ((Table.isUnion_congr (Table.provides_perm hrecords)).mp hunion)

/-- Answers have one outcome. -/
theorem Outcome.same (h : Outcome answers result) (h' : Outcome answers result') :
    SameOutcome result result' := by
  cases h with
  | critical h =>
    cases h' with
    | critical _ => exact .critical
    | refused hnone _ | merged hnone _ _ => exact absurd h hnone
  | refused hnone h =>
    obtain ⟨a, ha, hrefusal⟩ := h
    cases h' with
    | critical hcritical => exact absurd hcritical hnone
    | refused _ _ => exact .refused
    | merged _ haccept _ => exact absurd hrefusal (haccept a ha)
  | merged hnone haccept hunion =>
    cases h' with
    | critical hcritical => exact absurd hcritical hnone
    | refused _ h =>
      obtain ⟨a, ha, hrefusal⟩ := h
      exact absurd hrefusal (haccept a ha)
    | merged _ _ hunion' => exact .merged (hunion.lookup_eq hunion')

/-- The outcome is a critical error exactly when an answer is one or the records disagree. -/
theorem Outcome.critical_iff (h : Outcome answers result) :
    (∃ err, result = .error err) ↔ Critical answers := by
  cases h with
  | critical h => exact ⟨fun _ => h, fun _ => ⟨_, rfl⟩⟩
  | refused hnone _ | merged hnone _ _ => simp [hnone]

/-- Without a critical answer, the HTLC is refused exactly when some interceptor refuses it. -/
theorem Outcome.refused_iff (h : Outcome answers result) (hnone : ¬ Critical answers) :
    (∃ fwdErr, result = .ok (.error fwdErr)) ↔ ∃ a ∈ answers, a.IsRefusal := by
  cases h with
  | critical h => exact absurd h hnone
  | refused _ h => exact ⟨fun _ => h, fun _ => ⟨_, rfl⟩⟩
  | merged _ haccept _ =>
    constructor
    · rintro ⟨fwdErr, heq⟩
      cases heq
    · rintro ⟨a, ha, hrefusal⟩
      exact absurd hrefusal (haccept a ha)

/-- The HTLC is accepted exactly when every interceptor accepts it and their records agree. -/
theorem Outcome.accepted_iff (h : Outcome answers result) :
    (∃ records, result = .ok (.ok records)) ↔
      ¬ Critical answers ∧ ∀ a ∈ answers, ¬ a.IsRefusal := by
  cases h with
  | critical h => simp [h]
  | refused _ h =>
    obtain ⟨a, ha, hrefusal⟩ := h
    constructor
    · rintro ⟨records, heq⟩
      cases heq
    · rintro ⟨-, haccept⟩
      exact absurd hrefusal (haccept a ha)
  | merged hnone haccept _ => exact ⟨fun _ => ⟨hnone, haccept⟩, fun _ => ⟨_, rfl⟩⟩

/-- The answers that the loop reads before it sees the shutdown signal. -/
def answersRead (answers : List Answer) : Option Nat → List Answer
  | none => answers
  | some n => answers.take n

/-- Collecting the answers yields the outcome of those that were read. -/
theorem handleInterceptedHtlc_outcome (request : InterceptRequest) (hne : interceptors ≠ [])
    (answers : List Answer) (shutdown : Option Nat) : Outcome (answersRead answers shutdown)
      (handleInterceptedHtlc request interceptors answers shutdown) := by
  cases interceptors with
  | nil => exact absurd rfl hne
  | cons interceptor rest =>
    cases shutdown with
    | none => exact (collectAnswers_collected answers ∅ none).outcome
    | some n =>
      show Outcome (answers.take n) (collectAnswers answers (some n) ∅ none)
      rw [collectAnswers_some]
      exact (collectAnswers_collected _ ∅ none).outcome

/-- **Order does not matter.** Without a shutdown signal, interceptors make an HTLC fail critically
exactly if one of them does or their records do not agree; otherwise they refuse it exactly if one
of them does; otherwise they attach the union of their records. The outcome is the same for every
order in which they complete. -/
theorem handleInterceptedHtlc_answers (request : InterceptRequest) (hne : interceptors ≠ [])
    (answers : List Answer) :
    ((∃ err, handleInterceptedHtlc request interceptors answers none = .error err) ↔
      Critical answers) ∧
    (¬ Critical answers →
      ((∃ fwdErr, handleInterceptedHtlc request interceptors answers none = .ok (.error fwdErr)) ↔
        ∃ a ∈ answers, a.IsRefusal)) ∧
    (¬ Critical answers → (∀ a ∈ answers, ¬ a.IsRefusal) →
      ∃ records, handleInterceptedHtlc request interceptors answers none = .ok (.ok records) ∧
        Table.IsUnion records (recordsOf answers)) ∧
    ∀ answers', answers'.Perm answers →
      SameOutcome (handleInterceptedHtlc request interceptors answers' none)
        (handleInterceptedHtlc request interceptors answers none) := by
  have hanswers := handleInterceptedHtlc_outcome request hne answers none
  refine ⟨hanswers.critical_iff, hanswers.refused_iff, fun hnone haccept => ?_,
    fun answers' hperm => ?_⟩
  · obtain ⟨records, heq⟩ := hanswers.accepted_iff.mpr ⟨hnone, haccept⟩
    rw [heq] at hanswers ⊢
    cases hanswers with
    | merged _ _ hunion => exact ⟨records, rfl, hunion⟩
  · have hanswers' := handleInterceptedHtlc_outcome request hne answers' none
    exact (Outcome.perm hanswers' hperm).same hanswers

/-- The request that Bob's HTLC of a payment from Alice to Carol gives rise to. -/
def bobRequest : InterceptRequest :=
  interceptRequest (aliceToCarol ⟨1⟩)
    { i := 0, outgoingNode := alice, outgoingAmount := 20030, outgoingCltv := 58,
      incomingCustomRecords := ∅, failIdx := none } ⟨bob, 700, 30, 40⟩ 0

/-- Two interceptors, one of which attaches a record. -/
theorem handleInterceptedHtlc_answers_bobRequest :
    SameOutcome
      (handleInterceptedHtlc bobRequest [⟨"one"⟩, ⟨"two"⟩]
        [.ok (.ok (.ok ∅)), .ok (.ok (.ok ((∅ : CustomRecords).insert 1 [2])))] none)
      (handleInterceptedHtlc bobRequest [⟨"one"⟩, ⟨"two"⟩]
        [.ok (.ok (.ok ((∅ : CustomRecords).insert 1 [2]))), .ok (.ok (.ok ∅))] none) :=
  (handleInterceptedHtlc_answers bobRequest (by simp) _).2.2.2 _ (List.Perm.swap _ _ _)

/-! ## The shutdown signal -/

/-- **When interception fails closed.** An interceptor that fails an HTLC, critically or not, keeps
it from going on, whenever the shutdown signal comes, exactly if a failing answer is read before
the signal, or the records read before it do not agree. -/
theorem interception_closed_iff (request : InterceptRequest) (hne : interceptors ≠ [])
    (answers : List Answer) (shutdown : Option Nat) :
    ((∃ a ∈ answers, (∃ err, a = .ok (.error err)) ∨ a.IsRefusal) →
        ¬ ∃ records,
          handleInterceptedHtlc request interceptors answers shutdown = .ok (.ok records)) ↔
      ((∃ a ∈ answers, (∃ err, a = .ok (.error err)) ∨ a.IsRefusal) →
        (∃ a ∈ answersRead answers shutdown, a.IsCritical ∨ a.IsRefusal) ∨
          ¬ Table.Agree (recordsOf (answersRead answers shutdown))) := by
  have houtcome := handleInterceptedHtlc_outcome request hne answers shutdown
  refine imp_congr_right fun _ => ?_
  rw [houtcome.accepted_iff, not_and_or, not_not, Critical]
  constructor
  · rintro ((⟨a, ha, hcritical⟩ | hdisagree) | hrefused)
    · exact .inl ⟨a, ha, .inl hcritical⟩
    · exact .inr hdisagree
    · simp only [not_forall, not_not, exists_prop] at hrefused
      obtain ⟨a, ha, hrefusal⟩ := hrefused
      exact .inl ⟨a, ha, .inr hrefusal⟩
  · rintro (⟨a, ha, hcritical | hrefusal⟩ | hdisagree)
    · exact .inl (.inl ⟨a, ha, hcritical⟩)
    · exact .inr fun haccept => haccept a ha hrefusal
    · exact .inl (.inr hdisagree)

/-- The interceptor refuses after the signal, and the HTLC goes on. -/
theorem lateRefusal_dropped :
    handleInterceptedHtlc bobRequest [⟨"watcher"⟩] [.ok (.ok (.error (.interceptorError "no")))]
      (some 0) = .ok (.ok ∅) := rfl

theorem interception_closed_iff_bobRequest :
    ¬ ∃ records, handleInterceptedHtlc bobRequest [⟨"watcher"⟩]
      [.ok (.ok (.error (.interceptorError "no")))] (some 1) = .ok (.ok records) := by
  refine (interception_closed_iff bobRequest (by simp) _ (some 1)).mpr (fun hfails => .inl ?_) ?_
  · obtain ⟨a, ha, -⟩ := hfails
    exact ⟨a, ha, .inr ⟨.interceptorError "no", List.mem_singleton.mp ha⟩⟩
  · exact ⟨_, .head _, .inr ⟨_, rfl⟩⟩

end Outcome

end SimLn
