import Throned.Analysis.ChunkResults
import Throned.Model.ScanPass

/-!
# What a pass keeps

Each position below the cursor has a result that some probe call of the pass returned, and
while its snapshot exists the row describes the targets the pass began with.  A chunk
keeps this: it moves the cursor only over positions the core has finished.
-/

set_option autoImplicit false

namespace Throned.Scanner

open Throned.Library Throned.Scan

/-! ## The targets of a pass -/

/-- The default ports matter only as normalized. -/
theorem newTargets_congr {spec spec' : Spec} (hentries : spec.entries = spec'.entries)
    (hports : normalizePorts spec.defaultPorts = normalizePorts spec'.defaultPorts)
    (hmode : spec.portMode = spec'.portMode)
    (hhosts : spec.maxHostsPerEntry = spec'.maxHostsPerEntry)
    (hshuffle : spec.shuffle = spec'.shuffle) (hseed : spec.seed = spec'.seed) :
    newTargets spec = newTargets spec' := by
  obtain ⟨entries, ports, mode, hosts, shuffle, seed⟩ := spec
  obtain ⟨entries', ports', mode', hosts', shuffle', seed'⟩ := spec'
  simp only at hentries hports hmode hhosts hshuffle hseed
  subst hentries hmode hhosts hshuffle hseed
  have hlay : layRanges ⟨entries, ports, mode, hosts, shuffle, seed⟩ =
      layRanges ⟨entries, ports', mode, hosts, shuffle, seed⟩ := by
    unfold layRanges
    simp only [hports]
    rfl
  unfold newTargets
  rw [hlay]

/-- The core normalizes the ports as the hash does. -/
theorem normalizePorts_clean (ports : List Int) :
    normalizePorts (ipScanCleanPorts ports) = normalizePorts ports := by
  suffices h : (ipScanCleanPorts ports).foldl normalizeStep ([], []) =
      ports.foldl normalizeStep ([], []) from congrArg Prod.fst h
  induction ports using List.reverseRecOn with
  | nil => rfl
  | append_singleton ports port ih =>
    have hclean : ipScanCleanPorts (ports ++ [port]) =
        if port ≥ 1 ∧ port ≤ 65535 ∧ port ∉ ipScanCleanPorts ports then
          ipScanCleanPorts ports ++ [port] else ipScanCleanPorts ports := by
      unfold ipScanCleanPorts
      rw [List.foldl_append]
      rfl
    rw [hclean, List.foldl_append, ← ih]
    by_cases hnew : port ≥ 1 ∧ port ≤ 65535 ∧ port ∉ ipScanCleanPorts ports
    · rw [if_pos hnew, List.foldl_append]
    · rw [if_neg hnew]
      simp only [List.foldl_cons, List.foldl_nil]
      rw [normalizeStep]
      by_cases hrange : port < 1 ∨ port > 0xffff
      · rw [if_pos hrange]
      · rw [if_neg hrange, if_pos]
        rw [(normalized_foldl (ipScanCleanPorts ports) normalized_nil).seen, List.nil_append]
        push Not at hnew hrange
        exact ⟨hrange.1, hrange.2, hnew hrange.1 hrange.2⟩

/-- The spec a row describes: its snapshot, its seed and what its hash stands for. -/
def passSpec (db : IpLists) (scan : IpScan) : Spec :=
  scanWorkerBuildSpec (db.getEntries scan.snapshotListId) scan.specHash.ports
    scan.specHash.portMode.key scan.specHash.shuffle scan.seed

/-- Settings with the hash of a pass describe its targets. -/
theorem newTargets_initialSpec (w : ScanWorker) (entries : List IpListEntry) (seed : Word64)
    (baseListId : Int) :
    newTargets (w.initialSpec entries seed) =
      newTargets (scanWorkerBuildSpec entries (w.scan.config.targetSpecHash baseListId).ports
        (w.scan.config.targetSpecHash baseListId).portMode.key
        (w.scan.config.targetSpecHash baseListId).shuffle seed) := by
  have hconfig : w.config.ports = w.scan.config.ports ∧
      w.config.portMode = w.scan.config.portMode ∧ w.config.shuffle = w.scan.config.shuffle := by
    unfold ScanWorker.config
    split <;> exact ⟨rfl, rfl, rfl⟩
  apply newTargets_congr
  · rfl
  · show normalizePorts w.config.ports = normalizePorts (ipScanCleanPorts w.scan.config.ports)
    rw [hconfig.1, normalizePorts_clean]
  · exact congrArg PortMode.key hconfig.2.1
  · rfl
  · exact hconfig.2.2
  · rfl

/-! ## The lists -/

theorem getEntries_addIpList_self (db : IpLists) (entries : List IpListEntry) :
    (db.addIpList entries).getEntries db.nextId = entries := by
  simp [IpLists.getEntries, IpLists.addIpList]

theorem getEntries_addIpList {db : IpLists} (entries : List IpListEntry) {id : Int}
    (h : id < db.nextId) : (db.addIpList entries).getEntries id = db.getEntries id := by
  have hne : (id == (db.nextId : Int)) = false := by
    rw [beq_eq_false_iff_ne]
    omega
  simp [IpLists.getEntries, IpLists.addIpList, List.lookup_cons, hne]

theorem getEntries_deleteIpList (db : IpLists) (id other : Int) :
    (db.deleteIpList other).getEntries id = if id = other then [] else db.getEntries id := by
  unfold IpLists.getEntries IpLists.deleteIpList
  simp only
  induction db.lists with
  | nil => simp
  | cons list lists ih =>
    obtain ⟨key, entries⟩ := list
    rw [List.filter_cons]
    by_cases hkey : key = other
    · rw [if_neg (by simp [hkey]), ih, List.lookup_cons]
      by_cases hid : id = other
      · rw [if_pos hid, if_pos hid]
      · rw [if_neg hid, if_neg hid, beq_eq_false_iff_ne.mpr (by rw [hkey]; exact hid)]
    · rw [if_pos (by simpa using hkey), List.lookup_cons, List.lookup_cons]
      by_cases hid : id = key
      · rw [hid, if_neg hkey, beq_self_eq_true]
      · rw [beq_eq_false_iff_ne.mpr hid]
        exact ih

/-! ## The invariant -/

/-- Some probe call of a pass over `spec` returned a result for the position. -/
def Reported (records : List ChunkRecord) (spec : Spec) (position : ℕ) : Prop :=
  ∃ record ∈ records, newTargets record.request.spec = newTargets spec ∧
    ∃ response, record.answer = .ok response ∧
      ∃ r ∈ response.results, r.position = position

theorem Reported.mono {records more : List ChunkRecord} (hsub : ∀ r ∈ records, r ∈ more)
    {spec : Spec} {position : ℕ} (h : Reported records spec position) :
    Reported more spec position := by
  obtain ⟨record, hrecord, hrest⟩ := h
  exact ⟨record, hsub record hrecord, hrest⟩

/-- The pass columns of a scan: everything below the cursor has been reported, and while
its snapshot exists they describe the targets the pass began with. -/
structure PassKept (records : List ChunkRecord) (db : IpLists) (scan : IpScan) : Prop where
  reported : ∀ p < scan.cursor, Reported records scan.pass p
  snapshot : scan.snapshotListId < db.nextId
  targets : 0 ≤ scan.snapshotListId → db.getEntries scan.snapshotListId ≠ [] →
    newTargets (passSpec db scan) = newTargets scan.pass

/-- Two scans have the same pass, apart from its cursor. -/
structure SamePass (a b : IpScan) : Prop where
  snapshot : a.snapshotListId = b.snapshotListId
  seed : a.seed = b.seed
  hash : a.specHash = b.specHash
  pass : a.pass = b.pass

theorem SamePass.symm {a b : IpScan} (h : SamePass a b) : SamePass b a :=
  ⟨h.snapshot.symm, h.seed.symm, h.hash.symm, h.pass.symm⟩

theorem SamePass.trans {a b c : IpScan} (hab : SamePass a b) (hbc : SamePass b c) : SamePass a c :=
  ⟨hab.snapshot.trans hbc.snapshot, hab.seed.trans hbc.seed, hab.hash.trans hbc.hash,
    hab.pass.trans hbc.pass⟩

namespace PassKept

variable {records : List ChunkRecord} {db : IpLists} {scan : IpScan}

theorem mono {more : List ChunkRecord} (hsub : ∀ r ∈ records, r ∈ more)
    (h : PassKept records db scan) : PassKept more db scan where
  reported p hp := (h.reported p hp).mono hsub
  snapshot := h.snapshot
  targets := h.targets

theorem congr {other : IpScan} (hsame : SamePass scan other) (hcursor : scan.cursor = other.cursor)
    (h : PassKept records db scan) : PassKept records db other where
  reported p hp := by
    rw [← hsame.pass]
    exact h.reported p (by omega)
  snapshot := by
    rw [← hsame.snapshot]
    exact h.snapshot
  targets := by
    have := h.targets
    rwa [passSpec, hsame.snapshot, hsame.seed, hsame.hash, hsame.pass] at this

theorem addIpList (entries : List IpListEntry) (h : PassKept records db scan) :
    PassKept records (db.addIpList entries) scan where
  reported := h.reported
  snapshot := by
    have := h.snapshot
    simp only [IpLists.addIpList]
    omega
  targets := by
    have := h.targets
    rw [passSpec, getEntries_addIpList entries h.snapshot]
    exact this

theorem deleteIpList (id : Int) (h : PassKept records db scan) :
    PassKept records (db.deleteIpList id) scan where
  reported := h.reported
  snapshot := h.snapshot
  targets hid hne := by
    rw [getEntries_deleteIpList] at hne
    have hother : ¬scan.snapshotListId = id := by
      intro heq
      rw [if_pos heq] at hne
      exact hne rfl
    rw [if_neg hother] at hne
    rw [passSpec, getEntries_deleteIpList, if_neg hother]
    exact h.targets hid hne

/-- A pass without a snapshot. -/
theorem of_no_snapshot (hreported : ∀ p < scan.cursor, Reported records scan.pass p)
    (hsnapshot : scan.snapshotListId = -1) : PassKept records db scan where
  reported := hreported
  snapshot := by omega
  targets hid := by omega

end PassKept

/-- What a worker keeps: the row, and while it may write the row, its own pass. -/
structure Kept (records : List ChunkRecord) (w : ScanWorker) : Prop where
  row : PassKept records w.lists w.row
  scan : w.persist = true → PassKept records w.lists w.scan

/-- What a worker keeps in its chunk loop. -/
structure Looping (records : List ChunkRecord) (w : ScanWorker) : Prop extends Kept records w where
  same : w.persist = true → SamePass w.row w.scan
  targets : w.persist = true → w.rescanPass = false → newTargets w.spec = newTargets w.scan.pass

theorem Kept.mono {records more : List ChunkRecord} {w : ScanWorker}
    (hsub : ∀ r ∈ records, r ∈ more) (h : Kept records w) : Kept more w :=
  ⟨h.row.mono hsub, fun hp => (h.scan hp).mono hsub⟩

/-! ## A chunk -/

/-- A chunk that ended in an error, was not verified or was aborted in the config phase
leaves the cursor where it began. -/
def ChunkRecord.Rewinds (record : ChunkRecord) : Prop :=
  record.result.error ≠ [] ∨ record.network.unverified = true ∨
    (record.result.aborted = true ∧ record.configPhase = true) → record.cursor = record.start

namespace ScanWorker

variable {w : ScanWorker} {a : ChunkAnswers} {records : List ChunkRecord}

/-- A chunk that goes on leaves the cursor behind it only where the core has results. -/
theorem next_ownRun (hhonest : a.own.Honest) {p : ℕ} (hle : w.scan.activeCursor ≤ p)
    (hlt : p < (w.ownRun a).2.1) :
    ∃ response, a.own.probe (w.probeRequest w.spec w.scan.activeCursor w.chunkSize) =
      .ok response ∧ ∃ r ∈ response.results, r.position = p := by
  unfold ownRun runChunk at hlt
  cases hprobe : a.own.probe (w.probeRequest w.spec w.scan.activeCursor w.chunkSize) with
  | error coreError =>
    rw [hprobe] at hlt
    simp only at hlt
    omega
  | ok response =>
    refine ⟨response, rfl, (scanProbe_spec (hhonest _ _ hprobe)).2 p hle ?_⟩
    rw [hprobe] at hlt
    simp only at hlt
    split at hlt
    · simp only at hlt
      omega
    · have hmax : p < max w.scan.activeCursor response.nextCursor := by
        split at hlt
        · exact hlt
        · split at hlt
          · exact hlt
          · split at hlt <;> exact hlt
      exact (lt_max_iff.mp hmax).resolve_left (by omega)

/-- In an initial pass the next cursor is the chunk's start or what its own run gave. -/
theorem confirmation_initial (hinitial : w.rescanPass = false) :
    (w.confirmation a).next = (w.ownRun a).2.1 := by
  unfold confirmation
  simp only [hinitial, Bool.false_eq_true, false_and, if_false]

theorem cursorAfter_le :
    w.cursorAfter a ≤ w.scan.activeCursor ∨ w.cursorAfter a ≤ (w.confirmation a).next := by
  unfold cursorAfter nextCursor
  split
  · exact Or.inl (min_le_left _ _)
  · split
    · split
      · exact Or.inl (min_le_left _ _)
      · exact Or.inr (min_le_left _ _)
    · exact Or.inr (min_le_left _ _)

/-- The six conditions under which a chunk does not move the cursor come down to three. -/
theorem cursorAfter_rewind (htop : w.loopTop a = none)
    (hbad : (w.confirmation a).result.error ≠ [] ∨ (w.network a).unverified = true ∨
      ((w.confirmation a).result.aborted = true ∧ w.configPhase = true)) :
    w.cursorAfter a = w.scan.activeCursor := by
  have hlt : w.scan.activeCursor < w.scan.activeTotal := by
    by_contra hge
    unfold loopTop at htop
    split at htop
    · exact absurd htop (by simp)
    · rw [if_pos (by omega)] at htop
      exact absurd htop (by simp)
  unfold cursorAfter nextCursor
  rw [← or_assoc] at hbad
  rcases hbad with hfailed | ⟨haborted, hconfig⟩
  · rw [if_pos hfailed]
    exact min_eq_left hlt.le
  · split
    · exact min_eq_left hlt.le
    · exact min_eq_left hlt.le

@[simp] theorem afterChunk_lists : (w.afterChunk a).lists = w.lists := rfl
@[simp] theorem afterChunk_spec : (w.afterChunk a).spec = w.spec := rfl

theorem afterChunk_mode : (w.afterChunk a).scan.mode = w.scan.mode := by
  unfold afterChunk IpScan.setCursor
  simp only
  split <;> rfl

theorem afterChunk_rescanPass : (w.afterChunk a).rescanPass = w.rescanPass := by
  unfold rescanPass
  rw [afterChunk_mode]

theorem persist_of_afterChunk (h : (w.afterChunk a).persist = true) : w.persist = true := by
  change (w.persist && a.persistResults && a.persistProgress) = true at h
  simp only [Bool.and_eq_true] at h
  exact h.1.1

/-- A chunk leaves the pass itself alone. -/
theorem samePass_afterChunk : SamePass w.scan (w.afterChunk a).scan := by
  unfold afterChunk IpScan.setCursor
  simp only
  split <;> exact ⟨rfl, rfl, rfl, rfl⟩

theorem samePass_afterChunk_row : SamePass w.row (w.afterChunk a).row := by
  unfold afterChunk saveProgress
  simp only
  split
  · split <;> exact ⟨rfl, rfl, rfl, rfl⟩
  · exact ⟨rfl, rfl, rfl, rfl⟩

theorem afterChunk_cursor :
    (w.afterChunk a).scan.cursor = if w.rescanPass then w.scan.cursor else w.cursorAfter a := by
  unfold afterChunk IpScan.setCursor rescanPass
  simp only [decide_eq_true_eq]
  split <;> rfl

theorem afterChunk_row_cursor :
    (w.afterChunk a).row.cursor =
      if (w.afterChunk a).persist = true ∧ w.rescanPass = false then w.cursorAfter a
      else w.row.cursor := by
  have hrow : (w.afterChunk a).row = if (w.afterChunk a).persist then
    saveProgress w.row (w.afterChunk a).scan else w.row := rfl
  rw [hrow]
  by_cases hpersist : (w.afterChunk a).persist = true
  · rw [if_pos hpersist, saveProgress, afterChunk_mode]
    by_cases hrescan : w.scan.mode = .rescanResult
    · rw [if_pos hrescan, if_neg (by simp [rescanPass, hrescan])]
    · have hinitial : w.rescanPass = false := by simp [rescanPass, hrescan]
      rw [if_neg hrescan, if_pos ⟨hpersist, hinitial⟩]
      simp only
      rw [afterChunk_cursor, hinitial]
      rfl
  · rw [if_neg hpersist, if_neg (fun h => hpersist h.1)]

/-- What an initial pass leaves behind its new cursor. -/
theorem reported_afterChunk (hinitial : w.rescanPass = false) (hhonest : a.own.Honest)
    (hspec : newTargets w.spec = newTargets w.scan.pass)
    (hreported : ∀ p < w.scan.cursor, Reported records w.scan.pass p) :
    ∀ p < w.cursorAfter a, Reported (records ++ [w.chunkRecord a]) w.scan.pass p := by
  have hactive : w.scan.activeCursor = w.scan.cursor := by
    unfold IpScan.activeCursor
    rw [if_neg (by simpa [rescanPass] using hinitial)]
  intro p hp
  by_cases hold : p < w.scan.cursor
  · exact (hreported p hold).mono fun r hr => List.mem_append_left _ hr
  · have hnext : p < (w.ownRun a).2.1 := by
      rw [← confirmation_initial hinitial]
      rcases cursorAfter_le (w := w) (a := a) with hle | hle
      · omega
      · exact lt_of_lt_of_le hp hle
    obtain ⟨response, hresponse, hr⟩ := next_ownRun hhonest (by omega) hnext
    exact ⟨w.chunkRecord a, List.mem_append_right _ (List.mem_singleton_self _), hspec, response,
      hresponse, hr⟩

theorem rewinds_of_mem_chunkLoop (answers : List ChunkAnswers) : ∀ {w : ScanWorker},
    ∀ record ∈ (w.chunkLoop answers).1, record.Rewinds := by
  induction answers with
  | nil => exact fun _ h => absurd h List.not_mem_nil
  | cons a answers ih =>
    intro w record hrecord
    rw [ScanWorker.chunkLoop] at hrecord
    cases htop : w.loopTop a with
    | some finish =>
      rw [htop] at hrecord
      exact absurd hrecord List.not_mem_nil
    | none =>
      have hself : (w.chunkRecord a).Rewinds := cursorAfter_rewind htop
      rw [htop] at hrecord
      cases hfinish : w.chunkFinish a with
      | some finish =>
        rw [hfinish] at hrecord
        rw [List.mem_singleton.mp hrecord]
        exact hself
      | none =>
        rw [hfinish] at hrecord
        cases hrecord with
        | head => exact hself
        | tail _ hrecord => exact ih record hrecord

end ScanWorker

namespace Looping

open ScanWorker

variable {w : ScanWorker} {a : ChunkAnswers} {records : List ChunkRecord}

theorem afterChunk (h : Looping records w) (hhonest : a.own.Honest) :
    Looping (records ++ [w.chunkRecord a]) (w.afterChunk a) := by
  have hsub : ∀ r ∈ records, r ∈ records ++ [w.chunkRecord a] := fun r hr =>
    List.mem_append_left _ hr
  have hscan : (w.afterChunk a).persist = true →
      PassKept (records ++ [w.chunkRecord a]) w.lists (w.afterChunk a).scan := by
    intro hafter
    have hpersist := persist_of_afterChunk hafter
    have hkept := h.scan hpersist
    have hsame := samePass_afterChunk (w := w) (a := a)
    by_cases hinitial : w.rescanPass = false
    · have hmoved : PassKept (records ++ [w.chunkRecord a]) w.lists
          { w.scan with cursor := w.cursorAfter a } :=
        { reported := reported_afterChunk hinitial hhonest (h.targets hpersist hinitial)
            hkept.reported
          snapshot := hkept.snapshot
          targets := hkept.targets }
      have hmovedsame : SamePass { w.scan with cursor := w.cursorAfter a } (w.afterChunk a).scan :=
        ⟨hsame.snapshot, hsame.seed, hsame.hash, hsame.pass⟩
      apply hmoved.congr hmovedsame
      rw [afterChunk_cursor, hinitial]
      rfl
    · apply (hkept.mono hsub).congr hsame
      rw [afterChunk_cursor, if_pos (by simpa using hinitial)]
  have hrowsame := samePass_afterChunk_row (w := w) (a := a)
  constructor
  · constructor
    · by_cases hmoves : (w.afterChunk a).persist = true ∧ w.rescanPass = false
      · have hpersist := persist_of_afterChunk hmoves.1
        apply (hscan hmoves.1).congr
        · exact samePass_afterChunk.symm.trans ((h.same hpersist).symm.trans hrowsame)
        · rw [afterChunk_cursor, afterChunk_row_cursor, if_pos hmoves, hmoves.2]
          rfl
      · apply (h.row.mono hsub).congr hrowsame
        rw [afterChunk_row_cursor, if_neg hmoves]
    · exact hscan
  · intro hafter
    have hsame := h.same (persist_of_afterChunk hafter)
    exact hrowsame.symm.trans (hsame.trans samePass_afterChunk)
  · intro hafter hinitial
    rw [afterChunk_rescanPass] at hinitial
    rw [← (samePass_afterChunk (w := w) (a := a)).pass]
    exact h.targets (persist_of_afterChunk hafter) hinitial

/-- The rounds of the loop. -/
theorem chunkLoop (answers : List ChunkAnswers) :
    ∀ {w : ScanWorker} {records : List ChunkRecord}, Looping records w →
      (∀ a ∈ answers, a.Honest) →
      Looping (records ++ (w.chunkLoop answers).1) (w.chunkLoop answers).2.1 := by
  induction answers with
  | nil =>
    intro w records h _
    rw [ScanWorker.chunkLoop, List.append_nil]
    exact h
  | cons a answers ih =>
    intro w records h hhonest
    rw [ScanWorker.chunkLoop]
    cases w.loopTop a with
    | some finish =>
      rw [List.append_nil]
      exact h
    | none =>
      have hafter := h.afterChunk (hhonest a List.mem_cons_self).own
      cases w.chunkFinish a with
      | some finish => exact hafter
      | none =>
        have hrest := ih hafter fun b hb => hhonest b (List.mem_cons_of_mem _ hb)
        rw [List.append_assoc] at hrest
        exact hrest

theorem runChunks {answers : List ChunkAnswers} (h : Looping records w)
    (hhonest : ∀ a ∈ answers, a.Honest) :
    Looping (records ++ (w.runChunks answers).1) (w.runChunks answers).2.1 := by
  apply Looping.chunkLoop answers _ hhonest
  have hsame : ∀ found, SamePass w.scan { w.scan with found } := fun _ => ⟨rfl, rfl, rfl, rfl⟩
  exact ⟨⟨h.row, fun hp => (h.scan hp).congr (hsame _) rfl⟩,
    fun hp => (h.same hp).trans (hsame _), h.targets⟩

end Looping

end Throned.Scanner
