import Throned.Analysis.HostEntries

/-!
# The result of a chunk

What the worker makes of the answers of an honest core: a chunk's failures are entries of
targets of its spec, and without a stop only an incomplete answer aborts it.
-/

set_option autoImplicit false

namespace Throned.Scanner

open Throned.Library Throned.Scan

/-! ## The core's answers -/

/-- Every answer is one the core can give. -/
def CallAnswers.Honest (a : CallAnswers) : Prop :=
  ∀ req response, a.probe req = .ok response → ScanProbe req response

structure ChunkAnswers.Honest (a : ChunkAnswers) : Prop where
  own : a.own.Honest
  rounds : ∀ k, (a.rounds k).call.Honest

/-- A config test that says something about each of its `n` targets. -/
def TestResp.Complete (build : ScanTestBuild) (n : ℕ) (response : TestResp) : Prop :=
  (∀ item ∈ response.results, scanWorkerIsAborted item.error = false) ∧
    ∀ target ∈ build.tag2target, 0 ≤ target.2 ∧ target.2 < n ∧
      ∃ item ∈ response.results, ScanWorker.targetOf build item.outboundTag = target.2

/-- No answer of a call is aborted. -/
structure CallAnswers.Complete (a : CallAnswers) : Prop where
  probe : ∀ req response, a.probe req = .ok response → response.error = [] →
    response.aborted = false
  tests : ∀ k targets response,
    (a.batches k).urlTest ((a.batches k).build targets) = .ok response →
      response.Complete ((a.batches k).build targets) targets.length

namespace ScanWorker

variable (w : ScanWorker)

/-! ## Failures -/

def failureEntry (candidate : ProbeOutcome) : IpListEntry :=
  scanWorkerEntry candidate.address candidate.port 0

/-- Handling candidates adds no failure but theirs. -/
def FailsOnly (candidates : List ProbeOutcome) (before after : ChunkResult) : Prop :=
  ∀ e ∈ after.failures, e ∈ before.failures ∨ ∃ c ∈ candidates, e = failureEntry c

variable {w}

namespace FailsOnly

variable {candidates : List ProbeOutcome} {r s t : ChunkResult}

theorem of_eq (h : s.failures = r.failures) : FailsOnly candidates r s :=
  fun _ he => Or.inl (h ▸ he)

theorem trans (hrs : FailsOnly candidates r s) (hst : FailsOnly candidates s t) :
    FailsOnly candidates r t :=
  fun e he => (hst e he).elim (hrs e) Or.inr

theorem mono {more : List ProbeOutcome} (hsub : ∀ c ∈ candidates, c ∈ more)
    (h : FailsOnly candidates r s) : FailsOnly more r s := fun e he =>
  (h e he).imp_right fun ⟨c, hc, hec⟩ => ⟨c, hsub c hc, hec⟩

theorem addFailure {c : ProbeOutcome} (hc : c ∈ candidates) :
    FailsOnly candidates r (ScanWorker.addFailure r c) := fun e he => by
  rcases List.mem_append.mp he with he | he
  · exact Or.inl he
  · exact Or.inr ⟨c, hc, List.mem_singleton.mp he⟩

/-- A fold of steps that add no failure but those of the candidates. -/
theorem foldl {α β : Type} (proj : β → ChunkResult) (f : β → α → β) (items : List α) (b : β)
    (hstep : ∀ b, ∀ item ∈ items, FailsOnly candidates (proj b) (proj (f b item))) :
    FailsOnly candidates (proj b) (proj (items.foldl f b)) := by
  induction items generalizing b with
  | nil => exact of_eq rfl
  | cons item items ih =>
    rw [List.foldl_cons]
    exact (hstep b item List.mem_cons_self).trans
      (ih _ fun b x hx => hstep b x (List.mem_cons_of_mem _ hx))

end FailsOnly

theorem failures_addProbeHits (candidates : List ProbeOutcome) (result : ChunkResult) :
    (w.addProbeHits candidates result).failures = result.failures := by
  unfold addProbeHits
  induction candidates generalizing result with
  | nil => rfl
  | cons c candidates ih => rw [List.foldl_cons, ih, addHit]

theorem mem_of_batchAt {batch : List ProbeOutcome} {index : Int} {c : ProbeOutcome}
    (h : batchAt batch index = some c) : c ∈ batch := by
  unfold batchAt at h
  split at h
  · cases h
  · exact List.mem_of_getElem? h

theorem failsOnly_testResult (batch : List ProbeOutcome) (build : ScanTestBuild)
    (tunnelsUp : List Text) (acc : ChunkResult × List Int) (item : UrlTestResult) :
    FailsOnly batch acc.1 (w.testResult batch build tunnelsUp acc item).1 := by
  unfold testResult
  simp only
  cases hat : batchAt batch (targetOf build item.outboundTag) with
  | none => exact .of_eq rfl
  | some c =>
    simp only
    by_cases hseen : targetOf build item.outboundTag ∈ acc.2
    · rw [if_pos hseen]
      exact .of_eq rfl
    · rw [if_neg hseen]
      simp only
      split
      · exact .of_eq rfl
      · split
        · exact .of_eq rfl
        · split
          · exact .of_eq rfl
          · exact .addFailure (mem_of_batchAt hat)

theorem failsOnly_testResults (batch : List ProbeOutcome) (build : ScanTestBuild)
    (response : TestResp) (result : ChunkResult) :
    FailsOnly batch result (w.testResults batch build response result) := by
  have hfold := @FailsOnly.foldl batch _ _ Prod.fst
    (w.testResult batch build ((response.vpnStatus.filter (·.2)).map (·.1))) response.results
    (result, []) fun acc item _ => failsOnly_testResult batch build _ acc item
  unfold testResults
  simp only
  split
  · exact hfold
  · exact hfold.trans (.of_eq rfl)

theorem failsOnly_unsupported (batch : List ProbeOutcome) (unsupported : List Int)
    (result : ChunkResult) :
    FailsOnly batch result ((unsupported.filterMap (batchAt batch)).foldl addFailure result) :=
  FailsOnly.foldl id addFailure _ _ fun _ c hc => by
    obtain ⟨index, -, hindex⟩ := List.mem_filterMap.mp hc
    exact .addFailure (mem_of_batchAt hindex)

theorem failsOnly_testBatch (batch : List ProbeOutcome) (answers : BatchAnswers)
    (result : ChunkResult) (stop : Bool) :
    FailsOnly batch result (w.testBatch batch answers result stop).1 := by
  have hunsupported := failsOnly_unsupported batch
    (answers.build (batch.map fun candidate => (candidate.address, candidate.port))).unsupported
    result
  unfold testBatch
  simp only
  split
  · exact .of_eq rfl
  · split
    · exact .of_eq rfl
    · split
      · exact hunsupported
      · split
        · exact hunsupported.trans (failsOnly_testResults batch _ _ _)
        · split
          · exact hunsupported.trans (.of_eq rfl)
          · split <;> exact hunsupported

theorem failsOnly_testBatches (candidates : List ProbeOutcome) (answers : ℕ → BatchAnswers)
    (n : ℕ) : ∀ (k : ℕ) (result : ChunkResult) (stop : Bool),
      FailsOnly candidates result (w.testBatches candidates answers n k result stop).1 := by
  induction n with
  | zero => exact fun _ _ _ => .of_eq rfl
  | succ n ih =>
    intro k result stop
    have hbatch := (failsOnly_testBatch (w := w)
      ((candidates.drop (k * w.subBatch)).take w.subBatch) (answers k) result stop).mono
        fun c hc => List.mem_of_mem_drop (List.mem_of_mem_take hc)
    unfold testBatches
    split
    · rename_i hstep
      rw [hstep] at hbatch
      exact hbatch
    · rename_i hstep
      rw [hstep] at hbatch
      exact hbatch.trans (ih _ _ _)

/-- A failure of the config test is the failure of a candidate. -/
theorem failureEntry_candidate {results : List ScanProbeResult} {c : ProbeOutcome}
    (hc : c ∈ w.candidates results) : ∃ r ∈ results, failureEntry c = resultEntry r := by
  obtain ⟨r, hr, rfl⟩ := List.mem_map.mp hc
  exact ⟨r, List.mem_of_mem_filter hr, rfl⟩

theorem mem_received_failures {results : List ScanProbeResult} {e : IpListEntry}
    (he : e ∈ (received results).failures) : ∃ r ∈ results, e = resultEntry r := by
  obtain ⟨r, hr, rfl⟩ := List.mem_map.mp he
  exact ⟨r, List.mem_of_mem_filter hr, rfl⟩

theorem failures_cutShort (results : List ScanProbeResult) (error : Text)
    (answers : CallAnswers) (stop : Bool) :
    (w.cutShort results error answers stop).1.failures = [] := by
  have hclear : ∀ result : ChunkResult, result.failures = [] →
      (if w.configPhase then result else
        w.addProbeHits (w.candidates results) result).failures = [] := by
    intro result h
    split
    · exact h
    · rw [failures_addProbeHits, h]
  unfold cutShort
  simp only
  split
  · exact hclear _ rfl
  · split <;> exact hclear _ rfl

/-- **A failure of a chunk is the entry of a result of the core.** -/
theorem mem_runChunk_failures {spec : Spec} {chunkStart next : ℕ} {maxTargets : Int}
    {answers : CallAnswers} {stop : Bool} {e : IpListEntry}
    (he : e ∈ (w.runChunk spec chunkStart maxTargets next answers stop).1.failures) :
    ∃ response, answers.probe (w.probeRequest spec chunkStart maxTargets) = .ok response ∧
      ∃ r ∈ response.results, e = resultEntry r := by
  unfold runChunk at he
  cases hprobe : answers.probe (w.probeRequest spec chunkStart maxTargets) with
  | error coreError =>
    rw [hprobe] at he
    simp only [failures_cutShort, List.not_mem_nil] at he
  | ok response =>
    refine ⟨response, rfl, ?_⟩
    rw [hprobe] at he
    simp only at he
    split at he
    · simp only [failures_cutShort, List.not_mem_nil] at he
    · split at he
      · simp only [failures_addProbeHits] at he
        exact mem_received_failures he
      · split at he
        · exact mem_received_failures he
        · split at he
          · exact mem_received_failures he
          · rcases failsOnly_testBatches _ _ _ _ _ _ e he with he | ⟨c, hc, rfl⟩
            · exact mem_received_failures he
            · exact failureEntry_candidate hc

/-- **With an honest core, the failures of a chunk are targets of its spec.** -/
theorem runChunk_failures_targets {spec : Spec} {chunkStart next : ℕ} {maxTargets : Int}
    {answers : CallAnswers} {stop : Bool} (hhonest : answers.Honest) {e : IpListEntry}
    (he : e ∈ (w.runChunk spec chunkStart maxTargets next answers stop).1.failures) :
    ∃ target ∈ spec.hostPorts, e = targetEntry target := by
  obtain ⟨response, hprobe, r, hr, rfl⟩ := mem_runChunk_failures he
  obtain ⟨target, hmem, -, haddress, hport⟩ := (scanProbe_spec (hhonest _ _ hprobe)).1 r hr
  exact ⟨target, hmem, resultEntry_eq haddress hport⟩

/-! ## Aborted chunks -/

theorem aborted_addProbeHits (candidates : List ProbeOutcome) (result : ChunkResult) :
    (w.addProbeHits candidates result).aborted = result.aborted := by
  unfold addProbeHits
  induction candidates generalizing result with
  | nil => rfl
  | cons c candidates ih => rw [List.foldl_cons, ih, addHit]

theorem aborted_addFailures (candidates : List ProbeOutcome) (result : ChunkResult) :
    (candidates.foldl addFailure result).aborted = result.aborted := by
  induction candidates generalizing result with
  | nil => rfl
  | cons c candidates ih => rw [List.foldl_cons, ih, addFailure]

/-- A result that is not an abort leaves the flag and marks its target. -/
theorem testResult_of_not_aborted (batch : List ProbeOutcome) (build : ScanTestBuild)
    (tunnelsUp : List Text) (acc : ChunkResult × List Int) {item : UrlTestResult}
    (h : scanWorkerIsAborted item.error = false) :
    let next := w.testResult batch build tunnelsUp acc item
    next.1.aborted = acc.1.aborted ∧ (∀ i ∈ acc.2, i ∈ next.2) ∧
      ((batchAt batch (targetOf build item.outboundTag)).isSome →
        targetOf build item.outboundTag ∈ next.2) := by
  unfold testResult
  simp only
  cases hat : batchAt batch (targetOf build item.outboundTag) with
  | none => exact ⟨rfl, fun _ hi => hi, fun h => by cases h⟩
  | some c =>
    simp only
    by_cases hseen : targetOf build item.outboundTag ∈ acc.2
    · rw [if_pos hseen]
      exact ⟨rfl, fun _ hi => hi, fun _ => hseen⟩
    · rw [if_neg hseen]
      refine ⟨?_, fun _ hi => List.mem_cons_of_mem _ hi, fun _ => List.mem_cons_self⟩
      simp only [h, Bool.false_eq_true, if_false]
      split
      · rfl
      · split <;> rfl

theorem aborted_testResults {batch : List ProbeOutcome} {build : ScanTestBuild}
    {response : TestResp} (hcomplete : response.Complete build batch.length)
    (result : ChunkResult) : (w.testResults batch build response result).aborted = result.aborted := by
  obtain ⟨hclean, hreported⟩ := hcomplete
  generalize htunnels : (response.vpnStatus.filter (·.2)).map (·.1) = tunnelsUp
  have hfold : ∀ (items : List UrlTestResult) (acc : ChunkResult × List Int),
      (∀ item ∈ items, scanWorkerIsAborted item.error = false) →
      let next := items.foldl (w.testResult batch build tunnelsUp) acc
      next.1.aborted = acc.1.aborted ∧ (∀ i ∈ acc.2, i ∈ next.2) ∧
        ∀ item ∈ items, (batchAt batch (targetOf build item.outboundTag)).isSome →
          targetOf build item.outboundTag ∈ next.2 := by
    intro items
    induction items with
    | nil => exact fun acc _ => ⟨rfl, fun _ hi => hi, fun _ hitem => absurd hitem List.not_mem_nil⟩
    | cons item items ih =>
      intro acc hitems
      have hone := testResult_of_not_aborted (w := w) batch build tunnelsUp acc
        (hitems item List.mem_cons_self)
      have hrest := ih (w.testResult batch build tunnelsUp acc item)
        fun x hx => hitems x (List.mem_cons_of_mem _ hx)
      refine ⟨hrest.1.trans hone.1, fun i hi => hrest.2.1 i (hone.2.1 i hi), fun x hx => ?_⟩
      cases hx with
      | head => exact fun hsome => hrest.2.1 _ (hone.2.2 hsome)
      | tail _ hx => exact hrest.2.2 x hx
  obtain ⟨haborted, -, hmarked⟩ := hfold response.results (result, []) hclean
  have hall : build.tag2target.all (fun target => decide (target.2 ∈
      (response.results.foldl (w.testResult batch build tunnelsUp) (result, [])).2)) = true := by
    rw [List.all_eq_true]
    intro target htarget
    obtain ⟨hpos, hlt, item, hitem, hindex⟩ := hreported target htarget
    rw [decide_eq_true_eq, ← hindex]
    apply hmarked item hitem
    rw [hindex, batchAt, if_neg (by omega), List.getElem?_eq_getElem (by omega)]
    rfl
  unfold testResults
  simp only [htunnels]
  rw [if_pos hall]
  exact haborted

/-- With a complete answer only a stop aborts a batch. -/
theorem aborted_testBatch {batch : List ProbeOutcome} {answers : BatchAnswers}
    (hcomplete : ∀ targets response, answers.urlTest (answers.build targets) = .ok response →
      response.Complete (answers.build targets) targets.length)
    {result : ChunkResult} {stop : Bool} (h : result.aborted = true → stop = true) :
    (w.testBatch batch answers result stop).1.aborted = true →
      (w.testBatch batch answers result stop).2.1 = true := by
  have hmono : result.aborted = true → (stop || answers.stopBefore) = true := fun ha => by
    rw [h ha, Bool.true_or]
  unfold testBatch
  simp only
  split
  · rename_i hstop
    exact fun _ => hstop
  · split
    · exact hmono
    · split
      · rw [aborted_addFailures]
        exact hmono
      · split
        · rename_i response hanswer
          have hlen : batch.length =
              (batch.map fun candidate => (candidate.address, candidate.port)).length :=
            List.length_map _ |>.symm
          have hone := hcomplete _ _ hanswer
          rw [← hlen] at hone
          rw [aborted_testResults hone, aborted_addFailures]
          exact hmono
        · split
          · rename_i hstop
            exact fun _ => hstop
          · split
            · intro ha
              simp only [aborted_addFailures] at ha ⊢
              rw [hmono ha, Bool.true_or, Bool.true_or]
            · intro ha
              simp only [aborted_addFailures] at ha ⊢
              rw [hmono ha, Bool.true_or, Bool.true_or]

theorem aborted_testBatches {candidates : List ProbeOutcome} {answers : CallAnswers}
    (hcomplete : answers.Complete) (n : ℕ) : ∀ (k : ℕ) (result : ChunkResult) (stop : Bool),
      (result.aborted = true → stop = true) →
      (w.testBatches candidates answers.batches n k result stop).1.aborted = true →
        (w.testBatches candidates answers.batches n k result stop).2.1 = true := by
  induction n with
  | zero => exact fun _ _ _ h => h
  | succ n ih =>
    intro k result stop h
    have hbatch := @aborted_testBatch w ((candidates.drop (k * w.subBatch)).take w.subBatch) _
      (hcomplete.tests k) _ _ h
    unfold testBatches
    split
    · rename_i hstep
      rw [hstep] at hbatch
      exact hbatch
    · rename_i hstep
      rw [hstep] at hbatch
      exact ih _ _ _ hbatch

/-- **With complete answers only a stop aborts a chunk.** -/
theorem stop_of_runChunk_aborted {spec : Spec} {chunkStart next : ℕ} {maxTargets : Int}
    {answers : CallAnswers} {stop : Bool} (hcomplete : answers.Complete)
    (h : (w.runChunk spec chunkStart maxTargets next answers stop).1.aborted = true) :
    (w.runChunk spec chunkStart maxTargets next answers stop).2.2 = true := by
  have hcut : ∀ results error, (w.cutShort results error answers stop).1.aborted = true →
      (w.cutShort results error answers stop).2 = true := by
    intro results error
    have hbase : (if w.configPhase then
        ({ received results with failures := [], localFailures := [] } : ChunkResult)
        else w.addProbeHits (w.candidates results)
          { received results with failures := [], localFailures := [] }).aborted = false := by
      split
      · rfl
      · rw [aborted_addProbeHits]
        rfl
    unfold cutShort
    simp only
    split
    · rename_i hstop
      exact fun _ => hstop
    · split
      · simp only [hbase, Bool.false_eq_true, false_implies]
      · simp only [hbase, Bool.false_eq_true, false_implies]
  revert h
  unfold runChunk
  cases hprobe : answers.probe (w.probeRequest spec chunkStart maxTargets) with
  | error coreError => exact hcut _ _
  | ok response =>
    simp only
    by_cases herror : response.error ≠ []
    · rw [if_pos herror]
      exact hcut _ _
    · rw [if_neg herror]
      have haborted := hcomplete.probe _ _ hprobe (not_not.mp herror)
      split
      · simp only [aborted_addProbeHits, haborted, Bool.false_eq_true, false_implies]
      · split
        · simp only [haborted, Bool.false_eq_true, false_implies]
        · split
          · rename_i hstop
            rw [haborted, Bool.false_or] at hstop
            exact fun _ => hstop
          · intro h
            exact aborted_testBatches hcomplete _ _ _ _
              (by simp only [haborted, Bool.false_eq_true, false_implies]) h

end ScanWorker

end Throned.Scanner
