import Throned.Analysis.ChunkResults

/-!
# What a rescan removes

A rescan removes a result as dead only after it failed its chunk and every retry, with
its family reachable, as long as no chunk's own answers are aborted without a stop.  An
aborted answer skips the retries but keeps the failures, so the chunk's unconfirmed
failures are removed.
-/

set_option autoImplicit false

namespace Throned.Scanner

open Throned.Library Throned.Scan

/-! ## Retries -/

namespace ScanWorker

variable {w : ScanWorker}

/-- A retry of entries of targets fails only among them. -/
theorem mem_of_retry_failures {failures : List IpListEntry}
    (hentries : ∀ e ∈ failures, ∃ target : Target, target.port ≤ 0xffff ∧ e = targetEntry target)
    {answers : CallAnswers} (hhonest : answers.Honest) {maxTargets : Int} {stop : Bool}
    {e : IpListEntry}
    (he : e ∈ (w.runChunk (retrySpec failures) 0 maxTargets 0 answers stop).1.failures) :
    e ∈ failures := by
  obtain ⟨target, htarget, rfl⟩ := runChunk_failures_targets hhonest he
  exact mem_of_mem_retrySpec hentries htarget

/-- **What is left after the retries failed each of them**, and none of them was cut
short. -/
theorem confirmRounds_spec {chunkStart : ℕ} {answers : ℕ → RoundAnswers}
    (hhonest : ∀ k, (answers k).call.Honest) (n : ℕ) : ∀ (k : ℕ) (c : Confirmation),
    (∀ e ∈ c.result.failures,
      ∃ target : Target, target.port ≤ 0xffff ∧ e = targetEntry target) →
    ∀ e ∈ (w.confirmRounds chunkStart answers n k c).result.failures,
      e ∈ c.result.failures ∧ ∃ retries,
        (w.confirmRounds chunkStart answers n k c).rounds = c.rounds ++ retries ∧
        retries.length = n ∧
        ∀ retry ∈ retries, retry.error = [] ∧ retry.aborted = false ∧ e ∈ retry.failures := by
  induction n with
  | zero =>
    intro k c _ e he
    exact ⟨he, [], (List.append_nil _).symm, rfl, fun _ hr => absurd hr List.not_mem_nil⟩
  | succ n ih =>
    intro k c hentries e he
    unfold confirmRounds at he ⊢
    by_cases hnone : c.result.failures = []
    · rw [if_pos hnone, hnone] at he
      exact absurd he List.not_mem_nil
    · simp only [if_neg hnone] at he ⊢
      by_cases hstop : (c.stop || (answers k).stopWaiting) = true
      · rw [if_pos hstop] at he
        exact absurd he List.not_mem_nil
      · rw [if_neg hstop] at he ⊢
        generalize hretry : w.runChunk (retrySpec c.result.failures) 0 c.result.failures.length 0
          (answers k).call (c.stop || (answers k).stopWaiting) = retry at he ⊢
        by_cases hcut : retry.1.error ≠ [] ∨ retry.1.aborted = true
        · rw [if_pos hcut] at he
          exact absurd he List.not_mem_nil
        · rw [if_neg hcut] at he ⊢
          have hsub : ∀ x ∈ retry.1.failures, x ∈ c.result.failures := by
            rw [← hretry]
            exact fun x hx => mem_of_retry_failures hentries (hhonest k) hx
          obtain ⟨hmem, retries, hrounds, hlen, hall⟩ :=
            ih _ _ (fun x hx => hentries x (hsub x hx)) e he
          refine ⟨hsub e hmem, retry.1 :: retries, ?_, by rw [List.length_cons, hlen], ?_⟩
          · rw [hrounds, List.append_assoc, List.singleton_append]
          · intro r hr
            cases hr with
            | head =>
              push Not at hcut
              exact ⟨hcut.1, by simpa using hcut.2, hmem⟩
            | tail _ hr => exact hall r hr

end ScanWorker

/-! ## A chunk -/

/-- An entry failed its chunk and each of the retries, none of which was cut short, and
its family was then found reachable. -/
structure ChunkRecord.Confirmed (record : ChunkRecord) (e : IpListEntry) : Prop where
  own : e ∈ record.own.failures
  complete : record.own.error = [] ∧ record.own.aborted = false
  rounds : record.rounds.length = kScanWorkerRescanRetries
  retried : ∀ retry ∈ record.rounds,
    retry.error = [] ∧ retry.aborted = false ∧ e ∈ retry.failures
  reachable : (if scanWorkerIsIpv6 e then record.network.ipv6Up else record.network.ipv4Up) = true

/-- The chunk's own answers are complete, or the user has asked for a stop before its
failures are weighed. -/
def ChunkAnswers.Trusted (a : ChunkAnswers) : Prop := a.own.Complete ∨ a.stopAtGuard = true

namespace ScanWorker

variable {w : ScanWorker} {a : ChunkAnswers}

/-- What it takes to be removed as dead. -/
theorem of_mem_dead {e : IpListEntry} (he : e ∈ (w.chunkRecord a).dead) :
    w.rescanPass = true ∧ w.stopAtGuard a = false ∧ (w.confirmation a).result.error = [] ∧
      e ∈ (w.confirmation a).result.failures ∧
      (if scanWorkerIsIpv6 e then (w.network a).ipv6Up else (w.network a).ipv4Up) = true := by
  simp only [chunkRecord, deadEntries] at he
  split at he
  · split at he
    · rename_i hcond
      simp only [Bool.and_eq_true, Bool.not_eq_true'] at hcond
      obtain ⟨⟨hrescan, hguarded⟩, hverified⟩ := hcond
      obtain ⟨hmem, hfamily⟩ := List.mem_filter.mp he
      have hverify : w.network a = w.verify (w.confirmation a).result a.networkUp (w.stopAtGuard a) :=
        rfl
      cases hg : w.guarded (w.confirmation a).result with
      | false => simp [hverify, verify, hg] at hguarded
      | true =>
        cases hs : w.stopAtGuard a with
        | true => simp [hverify, verify, hg, hs] at hverified
        | false =>
          simp only [ScanWorker.guarded, Bool.and_eq_true, decide_eq_true_eq] at hg
          exact ⟨hrescan, rfl, hg.1.1, hmem, hfamily⟩
    · exact absurd he List.not_mem_nil
  · exact absurd he List.not_mem_nil

/-- A chunk's own failures are entries of targets. -/
theorem ownRun_failures_targets (hhonest : a.own.Honest) :
    ∀ e ∈ (w.ownRun a).1.failures, ∃ target : Target, target.port ≤ 0xffff ∧ e = targetEntry target := by
  intro e he
  obtain ⟨target, hmem, rfl⟩ := runChunk_failures_targets hhonest he
  exact ⟨target, port_le_of_mem_hostPorts hmem, rfl⟩

/-- **A chunk with trusted answers removes only confirmed entries.** -/
theorem confirmed_of_mem_dead (hhonest : a.Honest) (htrusted : a.Trusted) {e : IpListEntry}
    (he : e ∈ (w.chunkRecord a).dead) : (w.chunkRecord a).Confirmed e := by
  obtain ⟨hrescan, hstop, herror, hmem, hfamily⟩ := of_mem_dead he
  have hguard : (w.confirmation a).stop = false ∧ a.stopAtGuard = false := by
    simpa [stopAtGuard] using hstop
  have hcomplete : a.own.Complete := htrusted.resolve_right (by simp [hguard.2])
  by_cases hconfirm : w.rescanPass = true ∧ (w.ownRun a).1.error = [] ∧
      (w.ownRun a).1.aborted = false ∧ (w.ownRun a).1.failures ≠ []
  · have heq : w.confirmation a = w.confirmFailures (w.ownRun a).1 w.scan.activeCursor
        (w.ownRun a).2.1 a.rounds (w.ownRun a).2.2 := if_pos hconfirm
    rw [heq] at hmem
    obtain ⟨hown, retries, hrounds, hlen, hall⟩ := confirmRounds_spec hhonest.rounds _ _ _
      (ownRun_failures_targets hhonest.own) e hmem
    have hrecord : (w.chunkRecord a).rounds = retries := by
      show (w.confirmation a).rounds = retries
      rw [heq]
      exact hrounds
    exact ⟨hown, ⟨hconfirm.2.1, hconfirm.2.2.1⟩, by rw [hrecord, hlen], by rwa [hrecord], hfamily⟩
  · -- without retries the chunk is aborted, and so stopped
    have heq : w.confirmation a = ⟨(w.ownRun a).1, (w.ownRun a).2.1, (w.ownRun a).2.2, []⟩ :=
      if_neg hconfirm
    rw [heq] at hmem herror hguard
    have haborted : (w.ownRun a).1.aborted = true := by
      by_contra hne
      exact hconfirm ⟨hrescan, herror, by simpa using hne, List.ne_nil_of_mem hmem⟩
    have := stop_of_runChunk_aborted hcomplete haborted
    exact absurd hguard.1 (by simp only [ownRun] at this ⊢; simp [this])

/-! ## The result list -/

theorem sameKey_trans {a b c : IpListEntry} (hab : sameKey a b = true)
    (hbc : sameKey b c = true) : sameKey a c = true := by
  simp only [sameKey, decide_eq_true_eq] at hab hbc ⊢
  exact ⟨hab.1.trans hbc.1, hab.2.trans hbc.2⟩

theorem sameKey_refl (a : IpListEntry) : sameKey a a = true := by simp [sameKey]

theorem exists_mem_upsertEntry {entries : List IpListEntry} (hit : IpListEntry) {e : IpListEntry}
    (he : e ∈ entries) : ∃ e' ∈ upsertEntry entries hit, sameKey e e' = true := by
  unfold upsertEntry
  split
  · exact ⟨e, he, sameKey_refl e⟩
  · split
    · refine ⟨_, List.mem_map_of_mem he, ?_⟩
      split
      · simp [sameKey]
      · exact sameKey_refl e
    · exact ⟨e, List.mem_append_left _ he, sameKey_refl e⟩

theorem exists_mem_upsertEntries (hits : List IpListEntry) : ∀ {entries : List IpListEntry}
    {e : IpListEntry}, e ∈ entries → ∃ e' ∈ upsertEntries entries hits, sameKey e e' = true := by
  induction hits with
  | nil => exact fun he => ⟨_, he, sameKey_refl _⟩
  | cons hit hits ih =>
    intro entries e he
    obtain ⟨e', he', hkey⟩ := exists_mem_upsertEntry hit he
    obtain ⟨e'', he'', hkey'⟩ := ih he'
    exact ⟨e'', he'', sameKey_trans hkey hkey'⟩

theorem mem_removeEntries {entries dead : List IpListEntry} {e : IpListEntry} (he : e ∈ entries)
    (h : ∀ x ∈ dead, sameKey e x = false) : e ∈ removeEntries entries dead := by
  refine List.mem_filter.mpr ⟨he, ?_⟩
  simp only [Bool.not_eq_true', List.any_eq_false]
  exact fun x hx => by simp [h x hx]

/-- **A chunk takes off the list only what it replaces and what it removes as dead.** -/
theorem exists_mem_afterChunk {e : IpListEntry} (he : e ∈ w.results) :
    (∃ e' ∈ (w.afterChunk a).results, sameKey e e' = true) ∨
      ∃ x ∈ (w.chunkRecord a).replaced ++ (w.chunkRecord a).dead, sameKey e x = true := by
  by_cases hgone : ∃ x ∈ (w.chunkRecord a).replaced ++ (w.chunkRecord a).dead, sameKey e x = true
  · exact Or.inr hgone
  · left
    push Not at hgone
    simp only [afterChunk]
    split
    · obtain ⟨e', he', hkey⟩ := exists_mem_upsertEntries (w.confirmation a).result.hits he
      have hkeep : ∀ x ∈ (w.chunkRecord a).replaced ++ (w.chunkRecord a).dead,
          sameKey e' x = false := by
        intro x hx
        by_contra hsame
        exact hgone x hx (sameKey_trans hkey (by simpa using hsame))
      refine ⟨e', ?_, hkey⟩
      apply mem_removeEntries
      · apply mem_removeEntries he'
        exact fun x hx => hkeep x (List.mem_append_left _ hx)
      · exact fun x hx => hkeep x (List.mem_append_right _ hx)
    · exact ⟨e, he, sameKey_refl e⟩

end ScanWorker

/-! ## A run -/

/-- **Removals are confirmed**: every entry a run removes as dead was confirmed, and
nothing leaves the result list but those and the entries replaced by a hit. -/
structure RemovalsConfirmed (w : ScanWorker) (answers : List ChunkAnswers) : Prop where
  confirmed : ∀ record ∈ (w.runChunks answers).1, ∀ e ∈ record.dead, record.Confirmed e
  kept : ∀ e ∈ w.results, (∃ e' ∈ (w.runChunks answers).2.1.results,
      ScanWorker.sameKey e e' = true) ∨
    ∃ record ∈ (w.runChunks answers).1, ∃ x ∈ record.replaced ++ record.dead,
      ScanWorker.sameKey e x = true

namespace ScanWorker

/-- Each round is one of a worker of the run, and what leaves the result list is in a
record. -/
theorem chunkLoop_spec (answers : List ChunkAnswers) : ∀ (w : ScanWorker),
    (∀ record ∈ (w.chunkLoop answers).1, ∃ v : ScanWorker, ∃ a ∈ answers,
      record = v.chunkRecord a) ∧
    ∀ e ∈ w.results, (∃ e' ∈ (w.chunkLoop answers).2.1.results, sameKey e e' = true) ∨
      ∃ record ∈ (w.chunkLoop answers).1, ∃ x ∈ record.replaced ++ record.dead,
        sameKey e x = true := by
  induction answers with
  | nil => exact fun w => ⟨fun _ h => absurd h List.not_mem_nil, fun e he => Or.inl ⟨e, he, sameKey_refl e⟩⟩
  | cons a answers ih =>
    intro w
    unfold chunkLoop
    cases w.loopTop a with
    | some finish =>
      exact ⟨fun _ h => absurd h List.not_mem_nil, fun e he => Or.inl ⟨e, he, sameKey_refl e⟩⟩
    | none =>
      simp only
      cases w.chunkFinish a with
      | some finish =>
        constructor
        · intro record hrecord
          exact ⟨w, a, List.mem_cons_self, List.mem_singleton.mp hrecord⟩
        · intro e he
          refine (exists_mem_afterChunk he).imp_right fun ⟨x, hx, hkey⟩ => ?_
          exact ⟨_, List.mem_singleton_self _, x, hx, hkey⟩
      | none =>
        obtain ⟨hrecords, hkept⟩ := ih (w.afterChunk a)
        simp only
        constructor
        · intro record hrecord
          cases hrecord with
          | head => exact ⟨w, a, List.mem_cons_self, rfl⟩
          | tail _ hrecord =>
            obtain ⟨v, b, hb, heq⟩ := hrecords record hrecord
            exact ⟨v, b, List.mem_cons_of_mem _ hb, heq⟩
        · intro e he
          rcases exists_mem_afterChunk (a := a) he with ⟨e', he', hkey⟩ | ⟨x, hx, hkey⟩
          · rcases hkept e' he' with ⟨e'', he'', hkey'⟩ | ⟨record, hrecord, x, hx, hkey'⟩
            · exact Or.inl ⟨e'', he'', sameKey_trans hkey hkey'⟩
            · exact Or.inr ⟨record, List.mem_cons_of_mem _ hrecord, x, hx, sameKey_trans hkey hkey'⟩
          · exact Or.inr ⟨_, List.mem_cons_self, x, hx, hkey⟩

end ScanWorker

/-! ### Sample runs -/

/-- The core's answer when no phase is enabled: every target passes. -/
def untestedAnswer (req : ProbeRequest) : Except Text ScanProbeResponse :=
  if 0 < req.maxTargets ∧ req.cursor < (newTargets req.spec).total.toNat ∧
      req.icmp = false ∧ req.tcp = false ∧ req.http = false then
    match untested req.chunk with
    | none => .error []
    | some results => .ok (scanProbeResponse
        { countResponse req with results, nextCursor := req.cursor + req.chunk.count } none)
  else .error []

theorem scanProbe_untestedAnswer {req : ProbeRequest} {response : ScanProbeResponse}
    (h : untestedAnswer req = .ok response) : ScanProbe req response := by
  unfold untestedAnswer at h
  split at h
  · rename_i hreq
    obtain ⟨hmax, hcursor, hicmp, htcp, hhttp⟩ := hreq
    split at h
    · cases h
    · rename_i results hresults
      cases h
      exact .answered (.untested hmax hcursor ⟨hicmp, htcp, hhttp⟩ hresults)
  · cases h

/-- A config test that names its outbounds after their addresses. -/
def sampleBuild (targets : List (Text × Int)) : ScanTestBuild :=
  { error := [], built := true, outboundTags := targets.map (·.1)
    tag2target := targets.zipIdx.map fun target => (target.1.1, target.2), unsupported := [] }

/-- A core whose config test says `error tag` of each outbound. -/
def sampleCall (error : Text → Text) : CallAnswers :=
  { probe := untestedAnswer, stopAfterProbe := false
    batches := fun _ =>
      { stopBefore := false, build := sampleBuild, stopAfter := false
        urlTest := fun build => .ok
          { results := build.outboundTags.map fun tag => ⟨tag, error tag, 0⟩, vpnStatus := [] } } }

/-- A round in which nobody stops the scan and the network is up. -/
def sampleAnswers (call : CallAnswers) : ChunkAnswers :=
  { stopAtTop := false, own := call
    rounds := fun _ => { stopWaiting := false, call, stopAfter := false }
    stopAtGuard := false, networkUp := fun _ => true, persistResults := true
    persistProgress := true, stopAtEnd := false }

/-- A scan through the config test alone. -/
def sampleConfig : ScanConfig :=
  { ports := [], portMode := .merge, shuffle := false, scanIPv6 := false, stopAfter := 0
    concurrency := 64, icmp := false, tcp := false, http := false, configTest := true }

/-- A rescan of a result list through the config test alone. -/
def sampleRescan (results : List IpListEntry) : ScanWorker :=
  let scan : IpScan :=
    { kind := .generic, config := sampleConfig, baseListId := 3, mode := .rescanResult
      resultListId := 1, snapshotListId := -1, seed := 0, cursor := 0, total := 0
      specHash := sampleConfig.targetSpecHash 3, rescanSnapshotListId := 2, rescanCursor := 0
      rescanTotal := results.length, found := results.length, removed := 0
      pass := ScanWorker.retrySpec [] }
  { scan, spec := ScanWorker.retrySpec results, basePort := 443, results, row := scan
    lists := ⟨[(2, results)], 4⟩, stop := false, persist := true }

/-! ### The removals of a run -/

/-- **As long as no chunk's own answers are aborted without a stop, a run removes only
confirmed entries**, whatever an honest core answers and whenever the user stops. -/
theorem removalsConfirmed_of_trusted (w : ScanWorker) (answers : List ChunkAnswers)
    (hhonest : ∀ a ∈ answers, a.Honest) (htrusted : ∀ a ∈ answers, a.Trusted) :
    RemovalsConfirmed w answers := by
  obtain ⟨hrecords, hkept⟩ := ScanWorker.chunkLoop_spec answers
    { w with scan := { w.scan with
      found := if w.persist = true ∧ 0 ≤ w.scan.resultListId then w.results.length
        else w.scan.found } }
  refine ⟨fun record hrecord e he => ?_, hkept⟩
  obtain ⟨v, a, ha, rfl⟩ := hrecords record hrecord
  exact ScanWorker.confirmed_of_mem_dead (hhonest a ha) (htrusted a ha) he

/-- One result, dead in its chunk and in every retry, is removed. -/
theorem removalsConfirmed_of_trusted_sample :
    let entry : IpListEntry := ⟨"1.1.1.1".toList, 443, 20⟩
    let build := sampleBuild [("1.1.1.1".toList, 443)]
    let call : CallAnswers :=
      { probe := untestedAnswer, stopAfterProbe := false
        batches := fun _ =>
          { stopBefore := false, build := sampleBuild, stopAfter := false
            urlTest := fun b => if b = build then
                .ok ⟨[⟨"1.1.1.1".toList, "connection refused".toList, 0⟩], []⟩
              else .error "no test".toList } }
    RemovalsConfirmed (sampleRescan [entry]) [sampleAnswers call] ∧
      ((sampleRescan [entry]).runChunks [sampleAnswers call]).2.1.results = [] := by
  intro entry build call
  refine ⟨removalsConfirmed_of_trusted _ _ ?_ ?_, by decide +kernel⟩
  · intro a ha
    rw [List.mem_singleton] at ha
    subst ha
    exact ⟨fun _ _ => scanProbe_untestedAnswer, fun _ _ _ => scanProbe_untestedAnswer⟩
  · intro a ha
    rw [List.mem_singleton] at ha
    subst ha
    refine Or.inl ⟨fun req response h _ => ?_, fun k targets response h => ?_⟩
    · simp only [sampleAnswers, call, untestedAnswer] at h
      split at h
      · split at h
        · cases h
        · cases h
          rfl
      · cases h
    · simp only [sampleAnswers, call] at h ⊢
      split at h
      · rename_i hbuild
        cases h
        have hlen : targets.length = 1 := by
          have := congrArg (fun b => b.outboundTags.length) hbuild
          simpa [sampleBuild, build] using this
        rw [hbuild, hlen]
        refine ⟨by decide, fun target htarget => ?_⟩
        have : target = ("1.1.1.1".toList, 0) := by
          simpa [build, sampleBuild] using htarget
        subst this
        exact ⟨by decide, by decide, _, List.mem_singleton_self _, by decide⟩
      · cases h

/-- An aborted config test of one result removes the other one unconfirmed. -/
theorem not_removalsConfirmed_aborted :
    ¬∀ (w : ScanWorker) (answers : List ChunkAnswers), (∀ a ∈ answers, a.Honest) →
      RemovalsConfirmed w answers := by
  intro h
  let call := sampleCall fun tag =>
    if tag = "1.0.0.1".toList then "context canceled".toList else "connection refused".toList
  let w := sampleRescan [⟨"1.1.1.1".toList, 443, 20⟩, ⟨"1.0.0.1".toList, 443, 30⟩]
  have hconfirmed := (h w [sampleAnswers call] fun a ha => by
    rw [List.mem_singleton] at ha
    subst ha
    exact ⟨fun _ _ => scanProbe_untestedAnswer, fun _ _ _ => scanProbe_untestedAnswer⟩).confirmed
  have hrun : (w.runChunks [sampleAnswers call]).1.map (fun r => (r.own.aborted, r.dead)) =
      [(true, [⟨"1.1.1.1".toList, 443, 0⟩])] := by decide +kernel
  obtain ⟨record, hrecord, heq⟩ := List.mem_map.mp (hrun ▸ List.mem_singleton_self _)
  obtain ⟨haborted, hdead⟩ := Prod.mk.inj heq
  have hentry := hconfirmed record hrecord _ (hdead ▸ List.mem_singleton_self _)
  rw [hentry.complete.2] at haborted
  cases haborted

end Throned.Scanner
