import Throned.Analysis.TargetsBijection
import Throned.Model.Probe

/-!
# What a probe call reports

However the goroutines interleave, a position is marked finished only together with a
result for it, and every result is one of a position of the chunk.  So an answer has a
result for every position from the request's cursor up to its next cursor.
-/

set_option autoImplicit false

namespace Throned.Scan

open Throned.Library

/-! ## The goroutines -/

/-- A result of a position of the chunk. -/
def Chunk.Reports (c : Chunk) (r : Result) : Prop :=
  ∃ i < c.count, r.position = c.start + i ∧
    c.targets.target r.position = some ⟨r.addr, r.port⟩

/-- The invariant of a run: finished positions have a result. -/
structure ProbeRun.Sound (c : Chunk) (s : ProbeRun) : Prop where
  length : s.finished.length = c.count
  running : ∀ g ∈ s.running, g.1 < c.count ∧ c.targets.target (c.start + g.1) = some g.2
  reports : ∀ r ∈ s.results, c.Reports r
  finished : ∀ i, s.finished[i]? = some true → ∃ r ∈ s.results, r.position = c.start + i

theorem sound_initial (c : Chunk) : (ProbeRun.initial c).Sound c where
  length := List.length_replicate
  running g hg := by cases hg
  reports r hr := by cases hr
  finished i hi := by
    simp only [ProbeRun.initial] at hi
    rw [List.getElem?_replicate] at hi
    split at hi <;> simp at hi

/-- A result carries its target and its position. -/
theorem result_spec {position : ℕ} {target : Target} {outcome : Outcome} {r : Result}
    (h : outcome.result position target = some r) :
    r.position = position ∧ target = ⟨r.addr, r.port⟩ := by
  cases outcome with
  | passed m =>
    cases h
    exact ⟨rfl, rfl⟩
  | failed m localFailure =>
    cases h
    exact ⟨rfl, rfl⟩
  | noEgress => cases h

theorem sound_step {c : Chunk} {s t : ProbeRun} (hs : s.Sound c) (h : ProbeStep c s t) :
    t.Sound c := by
  have herase : ∀ g, ∀ x ∈ s.running.erase g,
      x.1 < c.count ∧ c.targets.target (c.start + x.1) = some x.2 :=
    fun _ x hx => hs.running x (List.mem_of_mem_erase hx)
  cases h with
  | cancel => exact ⟨hs.length, hs.running, hs.reports, hs.finished⟩
  | launch hloop hctx hnext hslot htarget =>
    refine ⟨hs.length, fun g hg => ?_, hs.reports, hs.finished⟩
    cases hg with
    | head => exact ⟨hnext, htarget⟩
    | tail _ hg => exact hs.running g hg
  | stop => exact ⟨hs.length, hs.running, hs.reports, hs.finished⟩
  | refused hg => exact ⟨hs.length, herase _, hs.reports, hs.finished⟩
  | dropped hg hctx => exact ⟨hs.length, herase _, hs.reports, hs.finished⟩
  | @finish g outcome result hg hresult hmeasured =>
    obtain ⟨hlt, htarget⟩ := hs.running g hg
    obtain ⟨hposition, hresult⟩ := result_spec hresult
    refine ⟨by rw [List.length_set, hs.length], herase _, fun r hr => ?_, fun i hi => ?_⟩
    · rcases List.mem_append.mp hr with hr | hr
      · exact hs.reports r hr
      · rw [List.mem_singleton] at hr
        subst hr
        exact ⟨g.1, hlt, hposition, by rw [hposition, htarget, hresult]⟩
    · by_cases hgi : g.1 = i
      · exact ⟨result, by simp, by rw [hposition, hgi]⟩
      · rw [List.getElem?_set_ne hgi] at hi
        obtain ⟨r, hr, hri⟩ := hs.finished i hi
        exact ⟨r, List.mem_append_left _ hr, hri⟩

/-- **In every run, a finished position has a result.** -/
theorem sound_of_reachable {c : Chunk} {s : ProbeRun} (h : (probeSystem c).Reachable s) :
    s.Sound c := by
  apply System.Reachable.invariant _ _ h
  · rintro s rfl
    exact sound_initial c
  · exact fun _ _ _ hs hstep => sound_step hs hstep

/-- The positions before the first unfinished one are finished. -/
theorem finished_of_lt {finished : List Bool} {i : ℕ}
    (h : (finished.findIdx? (!·)).getD finished.length > i) : finished[i]? = some true := by
  have hlt : i < finished.length := by
    cases hfind : finished.findIdx? (!·) with
    | none => simpa [hfind] using h
    | some j =>
      obtain ⟨hj, -, -⟩ := List.findIdx?_eq_some_iff_getElem.mp hfind
      simp only [hfind, Option.getD_some] at h
      omega
  rw [List.getElem?_eq_getElem hlt, Option.some.injEq]
  cases hfind : finished.findIdx? (!·) with
  | none => simpa using List.findIdx?_eq_none_iff.mp hfind _ (List.getElem_mem hlt)
  | some j =>
    obtain ⟨hj, -, hbefore⟩ := List.findIdx?_eq_some_iff_getElem.mp hfind
    simp only [hfind, Option.getD_some] at h
    simpa using hbefore i h

/-! ## `Probe` -/

/-- The chunk of a request ends within the targets. -/
theorem chunk_le (req : ProbeRequest) :
    req.chunk.count ≤ (newTargets req.spec).total.toNat - req.cursor :=
  min_le_right _ _

/-- The next cursor, in terms of the first unfinished position. -/
theorem nextCursor_response (s : ProbeRun) (req : ProbeRequest)
    (hlen : s.finished.length = req.chunk.count) :
    (s.response req).nextCursor =
      req.cursor + (s.finished.findIdx? (!·)).getD s.finished.length ∧
    (s.response req).results = s.results := by
  unfold ProbeRun.response
  cases s.finished.findIdx? (!·) with
  | none => exact ⟨by rw [Option.getD_none, hlen], rfl⟩
  | some i => exact ⟨rfl, rfl⟩

/-- A map that succeeds pairs each element with its value. -/
theorem mapM_eq_some {α β : Type} {f : α → Option β} {xs : List α} {ys : List β}
    (h : xs.mapM f = some ys) :
    (∀ y ∈ ys, ∃ x ∈ xs, f x = some y) ∧ ∀ x ∈ xs, ∃ y ∈ ys, f x = some y := by
  induction xs generalizing ys with
  | nil =>
    cases h
    exact ⟨fun _ hy => absurd hy List.not_mem_nil, fun _ hx => absurd hx List.not_mem_nil⟩
  | cons x xs ih =>
    rw [List.mapM_cons] at h
    obtain ⟨y, hy, h⟩ := Option.bind_eq_some_iff.mp h
    obtain ⟨ys, hys, h⟩ := Option.bind_eq_some_iff.mp h
    cases h
    obtain ⟨hright, hleft⟩ := ih hys
    constructor
    · intro z hz
      cases hz with
      | head => exact ⟨x, List.mem_cons_self, hy⟩
      | tail _ hz =>
        obtain ⟨w, hw, hwz⟩ := hright z hz
        exact ⟨w, List.mem_cons_of_mem _ hw, hwz⟩
    · intro z hz
      cases hz with
      | head => exact ⟨y, List.mem_cons_self, hy⟩
      | tail _ hz =>
        obtain ⟨w, hw, hzw⟩ := hleft z hz
        exact ⟨w, List.mem_cons_of_mem _ hw, hzw⟩

theorem untested_spec {c : Chunk} {results : List Result} (h : untested c = some results) :
    (∀ r ∈ results, c.Reports r) ∧
      ∀ i < c.count, ∃ r ∈ results, r.position = c.start + i := by
  obtain ⟨hright, hleft⟩ := mapM_eq_some h
  constructor
  · intro r hr
    obtain ⟨i, hi, hri⟩ := hright r hr
    obtain ⟨target, htarget, rfl⟩ := Option.map_eq_some_iff.mp hri
    exact ⟨i, List.mem_range.mp hi, rfl, htarget⟩
  · intro i hi
    obtain ⟨r, hr, hri⟩ := hleft i (List.mem_range.mpr hi)
    obtain ⟨target, -, rfl⟩ := Option.map_eq_some_iff.mp hri
    exact ⟨_, hr, rfl⟩

/-- **`Probe` reports positions of the chunk, and all those before its next cursor.** -/
theorem probe_spec {req : ProbeRequest} {response : ProbeResponse} {error : Option Text}
    (h : Probe req response error) :
    (∀ r ∈ response.results, req.chunk.Reports r) ∧
      ∀ p, req.cursor ≤ p → p < response.nextCursor → ∃ r ∈ response.results, r.position = p := by
  have hcounted : (∀ r ∈ (countResponse req).results, req.chunk.Reports r) ∧
      ∀ p, req.cursor ≤ p → p < (countResponse req).nextCursor →
        ∃ r ∈ (countResponse req).results, r.position = p := by
    refine ⟨fun _ hr => absurd hr List.not_mem_nil, fun p hle hlt => ?_⟩
    have : (countResponse req).nextCursor ≤ req.cursor := min_le_left _ _
    omega
  cases h with
  | counted h => exact hcounted
  | refused hmax hcursor hphase error => exact hcounted
  | untested hmax hcursor hphases hresults =>
    obtain ⟨hreports, hall⟩ := untested_spec hresults
    refine ⟨hreports, fun p hle hlt => ?_⟩
    simp only at hlt
    obtain ⟨r, hr, hposition⟩ := hall (p - req.cursor) (by omega)
    refine ⟨r, hr, ?_⟩
    have hstart : req.chunk.start = req.cursor := rfl
    omega
  | @probed s hmax hcursor hphases hrun hdone =>
    have hsound := sound_of_reachable hrun
    obtain ⟨hnext, hresults⟩ := nextCursor_response s req hsound.length
    rw [hnext, hresults]
    refine ⟨hsound.reports, fun p hle hlt => ?_⟩
    obtain ⟨r, hr, hposition⟩ := hsound.finished (p - req.cursor) (finished_of_lt (by omega))
    refine ⟨r, hr, ?_⟩
    have hstart : req.chunk.start = req.cursor := rfl
    omega

/-! ## The answers -/

/-- **The core reports targets of the spec, and all those before its next cursor.** -/
theorem scanProbe_spec {req : ProbeRequest} {response : ScanProbeResponse}
    (h : ScanProbe req response) :
    (∀ r ∈ response.results, ∃ target ∈ req.spec.hostPorts,
        (newTargets req.spec).target r.position = some target ∧
        r.address = target.addr.string ∧ r.port = target.port) ∧
      ∀ p, req.cursor ≤ p → p < response.nextCursor →
        ∃ r ∈ response.results, r.position = p := by
  cases h with
  | refused hmax error =>
    refine ⟨fun _ hr => absurd hr List.not_mem_nil, fun p _ hlt => ?_⟩
    simp only at hlt
    omega
  | answered h =>
    obtain ⟨hreports, hall⟩ := probe_spec h
    constructor
    · intro r hr
      obtain ⟨result, hresult, rfl⟩ := List.mem_map.mp hr
      obtain ⟨i, hi, hposition, htarget⟩ := hreports result hresult
      have hle := chunk_le req
      have htotal := (newTargets req.spec).total.isLt
      have hstart : req.chunk.start = req.cursor := rfl
      have hmem : BitVec.ofNat 64 result.position ∈ positions (newTargets req.spec).total := by
        rw [mem_positions, BitVec.toNat_ofNat, Nat.mod_eq_of_lt (by omega)]
        omega
      obtain ⟨target, hmem, hat⟩ := at_mem req.spec hmem
      have heq : some target = some ⟨result.addr, result.port⟩ := hat.symm.trans htarget
      cases heq
      exact ⟨_, hmem, htarget, rfl, rfl⟩
    · intro p hle hlt
      obtain ⟨r, hr, hposition⟩ := hall p hle hlt
      exact ⟨_, List.mem_map_of_mem hr, hposition⟩

end Throned.Scan
