import Throned.Analysis.PassInvariant
import Throned.Analysis.RescanRemoval

/-!
# What lies behind the cursor

The invariant of a pass over any sequence of runs, pauses, errors and edits of a scan: a
run begins a new pass, or takes one up again only with the targets it began with.
-/

set_option autoImplicit false

namespace Throned.Scanner

open Throned.Library Throned.Scan

/-! ## Preparing a pass -/

/-- A worker that has its pass: the spec is that of the pass, or has yet to be made from
the row. -/
structure Ready (w : ScanWorker) : Prop where
  same : SamePass w.row w.scan
  targets : w.rescanPass = false → w.spec.entries ≠ [] →
    newTargets w.spec = newTargets w.scan.pass
  resumed : w.rescanPass = false → w.spec.entries = [] → 0 ≤ w.scan.snapshotListId ∧
    w.scan.specHash = w.scan.config.targetSpecHash w.scan.baseListId

/-- What a preparation leaves: a worker whose pass is kept, ready unless it failed, was
stopped or may no longer write the row. -/
structure Prepared (records : List ChunkRecord) (p : ScanWorker × Text) : Prop where
  kept : Kept records p.1
  ready : p.2 = [] → p.1.persist = true → p.1.stop = false → Ready p.1

section Preparation

variable {records : List ChunkRecord} {w : ScanWorker} {a : PassAnswers}

theorem Prepared.of_error {error : Text} (h : Kept records w) (herror : error ≠ []) :
    Prepared records (w, error) :=
  ⟨h, fun heq => absurd heq herror⟩

theorem Prepared.of_ended (h : Kept records w) (hend : w.persist = false ∨ w.stop = true) :
    Prepared records (w, []) := by
  refine ⟨h, fun _ hpersist hstop => ?_⟩
  rcases hend with hno | hyes
  · exact absurd (hno.symm.trans hpersist) (by decide)
  · exact absurd (hstop.symm.trans hyes) (by decide)

namespace Kept

open ScanWorker

theorem sync (h : Kept records w) (reading : ℕ) : Kept records (w.sync a reading) where
  row := h.row
  scan hp := by
    apply h.scan
    simp only [ScanWorker.sync, Bool.and_eq_true] at hp
    exact hp.1

theorem deleteList (h : Kept records w) (id : Int) : Kept records (w.deleteList id) := by
  unfold ScanWorker.deleteList
  split
  · exact h
  · exact ⟨h.row.deleteIpList id, fun hp => (h.scan hp).deleteIpList id⟩

theorem persistPassState (h : Kept records w) : Kept records w.persistPassState := by
  unfold ScanWorker.persistPassState
  split
  · rename_i hpersist
    exact ⟨(h.scan hpersist).congr (show SamePass w.scan _ from ⟨rfl, rfl, rfl, rfl⟩) rfl, h.scan⟩
  · exact h

theorem setScan {scan : IpScan} (h : Kept records w) (hsame : SamePass w.scan scan)
    (hcursor : w.scan.cursor = scan.cursor) : Kept records { w with scan } :=
  ⟨h.row, fun hp => (h.scan hp).congr hsame hcursor⟩

theorem addIpList (h : Kept records w) (entries : List IpListEntry) :
    Kept records { w with lists := w.lists.addIpList entries } :=
  ⟨h.row.addIpList entries, fun hp => (h.scan hp).addIpList entries⟩

theorem ensureResultList {v : ScanWorker} (h : Kept records w)
    (hv : w.ensureResultList a = some v) : Kept records v := by
  unfold ScanWorker.ensureResultList at hv
  split at hv
  · cases hv
  · cases hv
    exact ⟨h.row, fun hp => (h.scan hp).congr (show SamePass w.scan _ from ⟨rfl, rfl, rfl, rfl⟩) rfl⟩

theorem countTargets (h : Kept records w) : Kept records (w.countTargets a).1 := by
  unfold ScanWorker.countTargets
  simp only
  split
  · exact ⟨h.row, h.scan⟩
  · split
    · exact ⟨h.row, h.scan⟩
    · exact h

theorem resetPass (h : Kept records w) : Kept records w.resetPass := by
  have hdeleted := (h.deleteList w.scan.snapshotListId).deleteList w.scan.rescanSnapshotListId
  refine ⟨hdeleted.row, fun _ => PassKept.of_no_snapshot ?_ rfl⟩
  exact fun p hp => absurd hp (Nat.not_lt_zero p)

/-- The hash of a pass is that of the settings it began with. -/
theorem config_targetSpecHash (w : ScanWorker) (baseListId : Int) :
    w.config.targetSpecHash baseListId = w.scan.config.targetSpecHash baseListId := by
  unfold ScanWorker.config
  split <;> rfl

theorem addSnapshot (h : Kept records w) (hcursor : w.scan.cursor = 0)
    (entries : List IpListEntry) (seed : Word64) : Kept records (w.addSnapshot entries seed) where
  row := h.row.addIpList entries
  scan _ :=
    { reported := by
        intro p hp
        change p < w.scan.cursor at hp
        omega
      snapshot := by
        show (w.lists.nextId : Int) < ((w.lists.nextId + 1 : ℕ) : Int)
        omega
      targets := by
        intro _ _
        show newTargets (passSpec (w.lists.addIpList entries) (w.addSnapshot entries seed).scan) =
          newTargets (w.initialSpec entries seed)
        rw [newTargets_initialSpec w entries seed w.scan.baseListId, ← config_targetSpecHash]
        unfold passSpec ScanWorker.addSnapshot
        rw [getEntries_addIpList_self] }

theorem addRescanSnapshot (h : Kept records w) (entries : List IpListEntry) :
    Kept records (w.addRescanSnapshot entries) :=
  ⟨h.row.addIpList entries, fun hp => ((h.scan hp).addIpList entries).congr
    (show SamePass w.scan _ from ⟨rfl, rfl, rfl, rfl⟩) rfl⟩

theorem resetRescan (h : Kept records w) : Kept records w.resetRescan :=
  (h.deleteList w.scan.rescanSnapshotListId).setScan
    (show SamePass _ _ from ⟨rfl, rfl, rfl, rfl⟩) rfl

end Kept

open ScanWorker

theorem persist_sync {reading : ℕ} (h : (w.sync a reading).persist = true) : w.persist = true := by
  simp only [ScanWorker.sync, Bool.and_eq_true] at h
  exact h.1

theorem countTargets_ok {v : ScanWorker} {total : ℕ}
    (h : w.countTargets a = (v, .ok total)) : v = w := by
  unfold ScanWorker.countTargets at h
  simp only at h
  split at h
  · cases h
  · split at h <;> cases h
    rfl

theorem stop_of_countTargets {v : ScanWorker} (h : w.countTargets a = (v, .error [])) :
    v.stop = true := by
  have hfailed : ∀ (stop : Bool) (message : Text), message ≠ [] →
      (({ w with stop } : ScanWorker), (Except.error (if stop = true then [] else message) :
        Except Text ℕ)) = (v, .error []) → v.stop = true := by
    intro stop message hmessage heq
    obtain ⟨rfl, herror⟩ := Prod.mk.inj heq
    by_contra hstop
    rw [if_neg hstop] at herror
    exact hmessage (Except.error.inj herror)
  unfold ScanWorker.countTargets at h
  simp only at h
  split at h
  · refine hfailed _ _ ?_ h
    split
    · decide
    · assumption
  · split at h
    · rename_i hne
      exact hfailed _ _ hne h
    · cases h

/-- The end of both preparations: the targets are counted and the row is written. -/
theorem Prepared.of_counted (setTotal : ScanWorker → ℕ → ScanWorker) {error : Text}
    (herror : error ≠ []) (h : Kept records w) (hkept : ∀ total, Kept records (setTotal w total))
    (hready : ∀ total, (setTotal w total).persistPassState.persist = true →
      Ready (setTotal w total).persistPassState) :
    Prepared records (match w.countTargets a with
      | (w, .error error) => (w, error)
      | (w, .ok total) =>
        let w := (setTotal w total).persistPassState
        if total = 0 then (w, error) else (w, [])) := by
  cases hcount : w.countTargets a with
  | mk v count =>
    cases count with
    | error message =>
      have hv : Kept records v := by
        have := h.countTargets (a := a)
        rwa [hcount] at this
      refine ⟨hv, fun hnone _ hstop => ?_⟩
      simp only at hnone
      rw [hnone] at hcount
      exact absurd (hstop.symm.trans (stop_of_countTargets hcount)) (by decide)
    | ok total =>
      have hv := countTargets_ok hcount
      subst hv
      simp only
      split
      · exact Prepared.of_error (hkept total).persistPassState herror
      · exact ⟨(hkept total).persistPassState, fun _ hp _ => hready total hp⟩

/-- A row that has just been written describes the pass of its worker. -/
theorem ready_persistPassState (hpersist : w.persistPassState.persist = true)
    (htargets : w.rescanPass = false → w.spec.entries ≠ [] →
      newTargets w.spec = newTargets w.scan.pass)
    (hresumed : w.rescanPass = false → w.spec.entries = [] → 0 ≤ w.scan.snapshotListId ∧
      w.scan.specHash = w.scan.config.targetSpecHash w.scan.baseListId) :
    Ready w.persistPassState := by
  have hw : w.persist = true := by
    unfold ScanWorker.persistPassState at hpersist
    split at hpersist <;> exact hpersist
  unfold ScanWorker.persistPassState
  rw [if_pos hw]
  exact ⟨⟨rfl, rfl, rfl, rfl⟩, htargets, hresumed⟩

theorem prepared_prepareInitial (h : Kept records w) : Prepared records (w.prepareInitial a) := by
  unfold ScanWorker.prepareInitial
  split
  · exact Prepared.of_error h (by decide)
  · exact Prepared.of_error h (by decide)
  · rename_i entries _ _
    simp only
    split
    · exact Prepared.of_error h (by decide)
    · rename_i hentries
      have hsync := h.sync (a := a) 1
      split
      · rename_i hend
        exact Prepared.of_ended hsync hend
      · cases hlist : (w.sync a 1).ensureResultList a with
        | none => exact Prepared.of_error hsync (by decide)
        | some v =>
          have hv := (hsync.ensureResultList hlist).sync (a := a) 2
          simp only
          split
          · rename_i hend
            exact Prepared.of_ended hv (Or.inl hend)
          · have hreset := hv.resetPass.sync (a := a) 3
            split
            · rename_i hend
              exact Prepared.of_ended hreset (Or.inl hend)
            · split
              · exact Prepared.of_error hreset (by decide)
              · have hadded := hreset.addSnapshot rfl
                  (scanWorkerFamilyFilter entries w.config.scanIPv6) a.seed
                apply Prepared.of_counted (fun w total => { w with scan := { w.scan with total } })
                  (by decide) hadded
                · exact fun total => hadded.setScan (show SamePass _ _ from ⟨rfl, rfl, rfl, rfl⟩) rfl
                · intro total hpersist
                  apply ready_persistPassState hpersist
                  · exact fun _ _ => rfl
                  · intro _ hempty
                    exact absurd (List.map_eq_nil_iff.mp hempty) hentries

theorem prepared_prepareRescan (h : Kept records w) : Prepared records (w.prepareRescan a) := by
  unfold ScanWorker.prepareRescan
  have hsync := h.sync (a := a) 1
  simp only
  split
  · rename_i hend
    exact Prepared.of_ended hsync hend
  · cases hlist : (w.sync a 1).resetRescan.ensureResultList a with
    | none => exact Prepared.of_error hsync.resetRescan (by decide)
    | some v =>
      have hv := hsync.resetRescan.ensureResultList hlist
      simp only
      split
      · exact Prepared.of_error hv.persistPassState (by decide)
      · split
        · exact Prepared.of_error hv.persistPassState (by decide)
        · have hv := hv.sync (a := a) 3
          split
          · rename_i hend
            exact Prepared.of_ended hv (Or.inl hend)
          · split
            · exact Prepared.of_error hv (by decide)
            · have hadded := hv.addRescanSnapshot
                (scanWorkerFamilyFilter v.results v.config.scanIPv6)
              apply Prepared.of_counted
                (fun w total => { w with scan := { w.scan with rescanTotal := total } })
                (by decide) hadded
              · exact fun total => hadded.setScan (show SamePass _ _ from ⟨rfl, rfl, rfl, rfl⟩) rfl
              · intro total hpersist
                apply ready_persistPassState hpersist
                · exact fun hinitial => absurd (show true = false from hinitial) (by decide)
                · exact fun hinitial => absurd (show true = false from hinitial) (by decide)

namespace Ready

theorem sync (h : Ready w) (reading : ℕ) : Ready (w.sync a reading) :=
  ⟨h.same, h.targets, h.resumed⟩

theorem ensureResultList {v : ScanWorker} (h : Ready w) (hv : w.ensureResultList a = some v) :
    Ready v := by
  unfold ScanWorker.ensureResultList at hv
  split at hv
  · cases hv
  · cases hv
    exact ⟨h.same.trans ⟨rfl, rfl, rfl, rfl⟩, h.targets, h.resumed⟩

theorem persistPassState (h : Ready w) : Ready w.persistPassState := by
  unfold ScanWorker.persistPassState
  split
  · exact ⟨⟨rfl, rfl, rfl, rfl⟩, h.targets, h.resumed⟩
  · exact h

/-- A pass that can be resumed, of a scan whose settings still have its hash. -/
theorem of_resumable (hsame : SamePass w.row w.scan) (hempty : w.spec.entries = [])
    (hresumable : ¬(rescanResumable w.scan = false ∧ w.scan.canResumeInitial = false))
    (hhash : rescanResumable w.scan = false →
      w.scan.specHash = w.scan.config.targetSpecHash w.scan.baseListId) :
    Ready (if rescanResumable w.scan then w else { w with scan := { w.scan with mode := .initial } }) := by
  cases hrescan : rescanResumable w.scan with
  | true =>
    refine ⟨hsame, fun _ hne => absurd hempty hne, fun hinitial _ => ?_⟩
    have hmode : w.scan.mode = .rescanResult := (of_decide_eq_true hrescan).1
    exact absurd hmode (by simpa [rescanPass] using hinitial)
  | false =>
    have hinitial : w.scan.canResumeInitial = true := by
      by_contra hno
      exact hresumable ⟨hrescan, by simpa using hno⟩
    exact ⟨hsame.trans ⟨rfl, rfl, rfl, rfl⟩, fun _ hne => absurd hempty hne,
      fun _ _ => ⟨(of_decide_eq_true hinitial).1, hhash hrescan⟩⟩

end Ready

theorem prepared_preparePass (h : Kept records w) (hsame : SamePass w.row w.scan)
    (hempty : w.spec.entries = []) {mode : StartMode}
    (hhash : mode = .resume → rescanResumable w.scan = false →
      w.scan.specHash = w.scan.config.targetSpecHash w.scan.baseListId) :
    Prepared records (w.preparePass a mode) := by
  cases mode with
  | fromInitial => exact prepared_prepareInitial h
  | rescanResults => exact prepared_prepareRescan h
  | resume =>
    unfold ScanWorker.preparePass
    simp only
    split
    · exact prepared_prepareInitial h
    · rename_i hresumable
      have hready := Ready.of_resumable hsame hempty hresumable (hhash rfl)
      have hkept : Kept records (if rescanResumable w.scan then w
          else { w with scan := { w.scan with mode := .initial } }) := by
        split
        · exact h
        · exact h.setScan ⟨rfl, rfl, rfl, rfl⟩ rfl
      generalize (if rescanResumable w.scan then w
        else { w with scan := { w.scan with mode := .initial } }) = u at hready hkept ⊢
      have hkept := hkept.sync (a := a) 1
      have hready := hready.sync (a := a) 1
      split
      · rename_i hend
        exact Prepared.of_ended hkept hend
      · cases hlist : (u.sync a 1).ensureResultList a with
        | none => exact Prepared.of_error hkept (by decide)
        | some v =>
          have hkept := hkept.ensureResultList hlist
          have hready := hready.ensureResultList hlist
          simp only
          split
          · exact ⟨hkept.persistPassState, fun _ _ _ => hready.persistPassState⟩
          · exact ⟨hkept, fun _ _ _ => hready⟩

theorem kept_no_snapshot (h : Kept records w) :
    Kept records { w with scan := { w.scan with snapshotListId := -1 } } :=
  ⟨h.row, fun hp => PassKept.of_no_snapshot (h.scan hp).reported rfl⟩

theorem kept_loadSpec (h : Kept records w) : Kept records w.loadSpec.1 := by
  unfold ScanWorker.loadSpec
  split
  · exact h
  · split
    · simp only
      split
      · exact h.setScan (show SamePass _ _ from ⟨rfl, rfl, rfl, rfl⟩) rfl
      · exact ⟨h.row, h.scan⟩
    · simp only
      split
      · exact kept_no_snapshot h
      · exact ⟨h.row, h.scan⟩

/-- The chunk loop starts on the targets of the pass. -/
theorem looping_loadSpec (h : Kept records w) (hready : w.persist = true → Ready w)
    (hloaded : w.loadSpec.2 = []) : Looping records w.loadSpec.1 := by
  have hkept := kept_loadSpec h
  unfold ScanWorker.loadSpec at hloaded hkept ⊢
  split at hloaded
  · rename_i hspec
    rw [if_pos hspec] at hkept ⊢
    exact ⟨hkept, fun hp => (hready hp).same, fun hp hinitial => (hready hp).targets hinitial hspec⟩
  · rename_i hspec
    rw [if_neg hspec] at hkept ⊢
    split at hloaded
    · rename_i hrescan
      rw [if_pos hrescan] at hkept ⊢
      simp only at hloaded hkept ⊢
      split at hloaded
      · simp at hloaded
      · rename_i hentries
        rw [if_neg hentries] at hkept ⊢
        refine ⟨hkept, fun hp => (hready hp).same, fun _ hinitial => ?_⟩
        exact absurd (hrescan.symm.trans hinitial) (by decide)
    · rename_i hrescan
      rw [if_neg hrescan] at hkept ⊢
      simp only at hloaded hkept ⊢
      split at hloaded
      · simp at hloaded
      · rename_i hentries
        rw [if_neg hentries] at hkept ⊢
        refine ⟨hkept, fun hp => (hready hp).same, fun hp hinitial => ?_⟩
        obtain ⟨hid, hhash⟩ := (hready hp).resumed hinitial (by simpa using hspec)
        have htargets := (h.scan hp).targets hid hentries
        unfold passSpec at htargets
        rw [hhash, ← newTargets_initialSpec] at htargets
        exact htargets

/-! ## A run -/

theorem kept_execute (h : Kept records w) (hsame : SamePass w.row w.scan)
    (hempty : w.spec.entries = []) {mode : StartMode}
    (hhash : mode = .resume → rescanResumable w.scan = false →
      w.scan.specHash = w.scan.config.targetSpecHash w.scan.baseListId)
    (hhonest : ∀ c ∈ a.chunks, c.Honest) :
    Kept (records ++ (w.execute a mode).1) (w.execute a mode).2.1 ∧
      ∀ record ∈ (w.execute a mode).1, record.Rewinds := by
  have hnothing : ∀ {v : ScanWorker}, Kept records v → Kept (records ++ []) v ∧
      ∀ record ∈ ([] : List ChunkRecord), record.Rewinds := by
    intro v hv
    rw [List.append_nil]
    exact ⟨hv, fun _ hr => absurd hr List.not_mem_nil⟩
  unfold ScanWorker.execute
  split
  · exact hnothing h
  · have hsync := h.sync (a := a) 0
    simp only
    split
    · exact hnothing hsync
    · have hprepared := prepared_preparePass (a := a) hsync hsame hempty hhash
      generalize (w.sync a 0).preparePass a mode = p at hprepared ⊢
      obtain ⟨v, error⟩ := p
      simp only
      split
      · exact hnothing hprepared.kept
      · rename_i herror
        have hkept := hprepared.kept.sync (a := a) 5
        split
        · exact hnothing hkept
        · rename_i hstop
          have hready : (v.sync a 5).persist = true → Ready (v.sync a 5) := by
            intro hp
            apply Ready.sync
            apply hprepared.ready (by simpa using herror) (persist_sync hp)
            by_contra hv
            apply hstop
            simp only [ScanWorker.sync, Bool.or_eq_true]
            exact Or.inl (by simpa using hv)
          have hloaded := looping_loadSpec hkept hready
          have hkept := kept_loadSpec hkept
          generalize (v.sync a 5).loadSpec = q at hloaded hkept ⊢
          obtain ⟨u, error⟩ := q
          simp only
          split
          · exact hnothing hkept
          · rename_i herror
            exact ⟨((hloaded (by simpa using herror)).runChunks hhonest).toKept,
              rewinds_of_mem_chunkLoop a.chunks⟩

theorem kept_finishPass (h : Kept records w) (completed : Bool) :
    Kept records (w.finishPass completed) := by
  unfold ScanWorker.finishPass
  apply Kept.persistPassState
  split
  · split
    · exact (h.deleteList w.scan.rescanSnapshotListId).setScan
        (show SamePass _ _ from ⟨rfl, rfl, rfl, rfl⟩) rfl
    · exact kept_no_snapshot (h.deleteList w.scan.snapshotListId)
  · split
    · exact h.setScan (show SamePass _ _ from ⟨rfl, rfl, rfl, rfl⟩) rfl
    · exact h

theorem kept_run (h : Kept records w) (hsame : SamePass w.row w.scan)
    (hempty : w.spec.entries = []) {mode : StartMode}
    (hhash : mode = .resume → rescanResumable w.scan = false →
      w.scan.specHash = w.scan.config.targetSpecHash w.scan.baseListId)
    (hhonest : ∀ c ∈ a.chunks, c.Honest) :
    Kept (records ++ (w.run a mode).1) (w.run a mode).2 ∧
      ∀ record ∈ (w.run a mode).1, record.Rewinds := by
  have hexecute := kept_execute (a := a) h hsame hempty hhash hhonest
  unfold ScanWorker.run
  generalize w.execute a mode = p at hexecute ⊢
  obtain ⟨more, v, finish⟩ := p
  cases finish with
  | none => exact hexecute
  | some finish =>
    exact ⟨kept_finishPass (hexecute.1.sync (a := a) 6) finish.completed, hexecute.2⟩

end Preparation

/-! ## A scan -/

/-- The core answers the chunks of each run as `Probe` does. -/
def ScanEvent.Honest : ScanEvent → Prop
  | .edit _ _ => True
  | .run _ a => ∀ c ∈ a.chunks, c.Honest

/-- `ScanManager::Start` resumes an initial pass only with the settings it began with. -/
theorem startMode_resume {row : IpScan} {mode : StartMode}
    (h : startMode row mode = some .resume) (hresumable : ScanWorker.rescanResumable row = false) :
    row.specHash = row.config.targetSpecHash row.baseListId := by
  unfold startMode at h
  split at h
  · split at h
    · cases h
    · split at h
      · cases h
      · rename_i hhash
        exact not_not.mp hhash
  · rename_i hmode
    exact absurd ⟨Option.some.inj h, hresumable⟩ hmode

theorem passKept_step {records : List ChunkRecord} {s : ScanStore} {event : ScanEvent}
    (h : PassKept records s.lists s.row) (hhonest : event.Honest) :
    PassKept (records ++ (s.step event).1) (s.step event).2.lists (s.step event).2.row ∧
      ∀ record ∈ (s.step event).1, record.Rewinds := by
  cases event with
  | edit config baseListId =>
    rw [ScanStore.step, List.append_nil]
    exact ⟨h.congr (show SamePass s.row _ from ⟨rfl, rfl, rfl, rfl⟩) rfl,
      fun _ hr => absurd hr List.not_mem_nil⟩
  | run mode a =>
    rw [ScanStore.step]
    cases hmode : startMode s.row mode with
    | none =>
      rw [List.append_nil]
      exact ⟨h, fun _ hr => absurd hr List.not_mem_nil⟩
    | some started =>
      have hworker : Kept records (s.worker a.basePort) := ⟨h, fun _ => h⟩
      have hrun := @kept_run _ _ a hworker ⟨rfl, rfl, rfl, rfl⟩ rfl started
        (fun heq hresumable => startMode_resume (heq ▸ hmode) hresumable) hhonest
      exact ⟨hrun.1.row, hrun.2⟩

theorem passKept_events (events : List ScanEvent) : ∀ {records : List ChunkRecord} {s : ScanStore},
    PassKept records s.lists s.row → (∀ event ∈ events, event.Honest) →
    PassKept (records ++ (s.events events).1) (s.events events).2.lists (s.events events).2.row ∧
      ∀ record ∈ (s.events events).1, record.Rewinds := by
  induction events with
  | nil =>
    intro records s h _
    rw [ScanStore.events, List.append_nil]
    exact ⟨h, fun _ hr => absurd hr List.not_mem_nil⟩
  | cons event events ih =>
    intro records s h hhonest
    have hstep := passKept_step h (hhonest event List.mem_cons_self)
    have hrest := ih hstep.1 fun e he => hhonest e (List.mem_cons_of_mem _ he)
    rw [ScanStore.events, ← List.append_assoc]
    refine ⟨hrest.1, fun record hrecord => ?_⟩
    rcases List.mem_append.mp hrecord with hfirst | hlater
    · exact hstep.2 record hfirst
    · exact hrest.2 record hlater

/-- **The cursor of a scan**: every position below it has a result that a probe call over
the targets of the pass returned, a chunk that failed left it where it was, and while the
snapshot exists the row describes those targets. -/
structure CursorReported (records : List ChunkRecord) (s : ScanStore) : Prop where
  reported : ∀ p < s.row.cursor, Reported records s.row.pass p
  rewinds : ∀ record ∈ records, record.Rewinds
  targets : 0 ≤ s.row.snapshotListId → s.lists.getEntries s.row.snapshotListId ≠ [] →
    newTargets (passSpec s.lists s.row) = newTargets s.row.pass

/-- **No run, pause, error or edit moves the cursor past a target without a result**, for
any answers an honest core gives. -/
theorem cursorReported_events (kind : Kind) (config : ScanConfig) (lists : IpLists)
    (events : List ScanEvent) (hhonest : ∀ event ∈ events, event.Honest) :
    CursorReported ((ScanStore.initial kind config lists).events events).1
      ((ScanStore.initial kind config lists).events events).2 := by
  have hinitial : PassKept [] (ScanStore.initial kind config lists).lists
      (ScanStore.initial kind config lists).row :=
    PassKept.of_no_snapshot (fun p hp => absurd hp (Nat.not_lt_zero p)) rfl
  obtain ⟨hkept, hrewinds⟩ := passKept_events events hinitial hhonest
  exact ⟨hkept.reported, hrewinds, hkept.targets⟩

/-- A run over a base list through the config test alone, with the core's answer for each
outbound. -/
def samplePass (base : List IpListEntry) (error : Text → Text) : PassAnswers :=
  { baseError := [], basePort := 443, baseList := some base, resultListId := 1, addIpList := true
    seed := 7, count := fun req => .ok (scanProbeResponse (countResponse req) none)
    flags := fun _ => (false, true)
    chunks := [sampleAnswers (sampleCall error), sampleAnswers (sampleCall error)] }

/-- A pass whose first chunk is aborted leaves the cursor at 0; resumed, it goes over both
targets. -/
theorem cursorReported_events_sample :
    let base : List IpListEntry := [⟨"1.1.1.1".toList, 443, 0⟩, ⟨"1.0.0.1".toList, 443, 0⟩]
    let first := [ScanEvent.edit sampleConfig 3,
      .run .fromInitial (samplePass base fun _ => "context canceled".toList)]
    let events := first ++ [.run .resume (samplePass base fun _ => [])]
    let s := ScanStore.initial .generic sampleConfig ⟨[], 4⟩
    CursorReported (s.events events).1 (s.events events).2 ∧ (s.events first).2.row.cursor = 0 ∧
      (s.events events).2.row.cursor = 2 := by
  intro base first events s
  refine ⟨cursorReported_events _ _ _ _ ?_, by decide +kernel, by decide +kernel⟩
  intro event hevent
  have hpass : ∀ mode error, (ScanEvent.run mode (samplePass base error)).Honest := by
    intro mode error c hc
    simp only [samplePass, List.mem_cons, List.not_mem_nil, or_false, or_self] at hc
    subst hc
    exact ⟨fun _ _ => scanProbe_untestedAnswer, fun _ _ _ => scanProbe_untestedAnswer⟩
  simp only [events, first, List.cons_append, List.nil_append, List.mem_cons, List.not_mem_nil,
    or_false] at hevent
  rcases hevent with rfl | rfl | rfl
  · exact trivial
  · exact hpass _ _
  · exact hpass _ _

end Throned.Scanner
