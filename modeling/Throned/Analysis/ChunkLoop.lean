import Throned.Analysis.PassInvariant
import Throned.Analysis.RescanRemoval

/-!
# The chunk loop ends

Whatever the core answers, an iteration of the chunk loop that goes on has moved the cursor
or has filled the result list, and a filled result list ends the loop at its top.
-/

set_option autoImplicit false

namespace Throned.Scanner

open Throned.Library Throned.Scan

namespace ScanWorker

variable {w v : ScanWorker} {a : ChunkAnswers}

/-! ## Where a chunk may leave the cursor -/

theorem runChunk_next_ge (spec : Spec) (chunkStart : ℕ) (maxTargets : Int)
    (answers : CallAnswers) (stop : Bool) :
    chunkStart ≤ (w.runChunk spec chunkStart maxTargets chunkStart answers stop).2.1 := by
  unfold runChunk
  split
  · exact le_rfl
  · split
    · exact le_rfl
    · simp only
      split
      · exact le_max_left _ _
      · split
        · exact le_max_left _ _
        · split <;> exact le_max_left _ _

/-- A retry leaves the next cursor alone or takes it back to the start of the chunk. -/
theorem confirmRounds_next_ge {chunkStart : ℕ} (answers : ℕ → RoundAnswers) (n : ℕ) :
    ∀ (k : ℕ) (c : Confirmation), chunkStart ≤ c.next →
      chunkStart ≤ (w.confirmRounds chunkStart answers n k c).next := by
  induction n with
  | zero => exact fun _ _ h => h
  | succ n ih =>
    intro k c h
    unfold confirmRounds
    split
    · exact h
    · simp only
      split
      · exact le_rfl
      · split
        · simp only
          split
          · exact le_rfl
          · exact h
        · exact ih _ _ h

theorem activeCursor_le_next : w.scan.activeCursor ≤ (w.confirmation a).next := by
  have hown : w.scan.activeCursor ≤ (w.ownRun a).2.1 := runChunk_next_ge _ _ _ _ _
  unfold confirmation
  simp only
  split
  · exact confirmRounds_next_ge _ _ _ _ hown
  · exact hown

theorem cursorAfter_le_activeTotal : w.cursorAfter a ≤ w.scan.activeTotal := min_le_right _ _

/-- A chunk never takes the cursor back. -/
theorem activeCursor_le_cursorAfter (h : w.scan.activeCursor ≤ w.scan.activeTotal) :
    w.scan.activeCursor ≤ w.cursorAfter a := by
  unfold cursorAfter nextCursor
  refine le_min ?_ h
  split
  · exact le_rfl
  · split
    · split
      · exact le_rfl
      · exact activeCursor_le_next
    · exact activeCursor_le_next

@[simp] theorem afterChunk_activeCursor : (w.afterChunk a).scan.activeCursor = w.cursorAfter a := by
  unfold afterChunk IpScan.activeCursor IpScan.setCursor
  by_cases hmode : w.scan.mode = .rescanResult
  · simp [hmode]
  · simp [hmode]

@[simp] theorem afterChunk_activeTotal : (w.afterChunk a).scan.activeTotal = w.scan.activeTotal := by
  unfold afterChunk IpScan.activeTotal IpScan.setCursor
  by_cases hmode : w.scan.mode = .rescanResult
  · simp [hmode]
  · simp [hmode]

/-! ## One iteration -/

theorem lt_activeTotal_of_loopTop (h : w.loopTop a = none) :
    w.scan.activeCursor < w.scan.activeTotal := by
  unfold loopTop at h
  split at h
  · cases h
  · split at h
    · cases h
    · omega

theorem loopTop_of_limitReached (h : w.limitReached = true) (a : ChunkAnswers) :
    w.loopTop a = some ⟨true, []⟩ := by
  unfold loopTop
  rw [if_pos h]

/-- **An iteration that does not return moves the cursor on**, unless its hits filled the
result list. -/
theorem activeCursor_lt_of_continues (htop : w.loopTop a = none) (hgoes : w.chunkFinish a = none) :
    w.scan.activeCursor < w.cursorAfter a ∨ (w.afterChunk a).limitReached = true := by
  have hlt := lt_activeTotal_of_loopTop htop
  have hle : w.scan.activeCursor ≤ w.cursorAfter a := activeCursor_le_cursorAfter hlt.le
  by_cases hlimit : (w.afterChunk a).limitReached = true
  · exact Or.inr hlimit
  · left
    unfold chunkFinish at hgoes
    simp only [afterChunk_activeCursor, afterChunk_activeTotal] at hgoes
    split at hgoes
    · cases hgoes
    · split at hgoes
      · cases hgoes
      · split at hgoes
        · cases hgoes
        · split at hgoes
          -- the end of the pass is beyond any cursor the loop starts a chunk from
          · rename_i hend
            exact hlt.trans_le (hend.resolve_right hlimit)
          · split at hgoes
            · cases hgoes
            · split at hgoes
              · cases hgoes
              · split at hgoes
                · cases hgoes
                · omega

/-- What the top of the loop takes for a finished pass. -/
def PassDone (w : ScanWorker) : Prop :=
  w.scan.activeTotal ≤ w.scan.activeCursor ∨
    w.rescanPass = false ∧ 0 < w.config.stopAfter ∧ w.config.stopAfter ≤ w.scan.found

theorem limitReached_iff : w.limitReached = true ↔
    w.rescanPass = false ∧ 0 < w.config.stopAfter ∧ w.config.stopAfter ≤ w.scan.found := by
  simp [limitReached]

theorem passDone_of_loopTop {finish : Finish} (h : w.loopTop a = some finish)
    (hcompleted : finish.completed = true) : w.PassDone := by
  unfold loopTop at h
  split at h
  · rename_i hlimit
    exact Or.inr (limitReached_iff.mp hlimit)
  · split at h
    · rename_i hcursor
      exact Or.inl hcursor
    · split at h
      · cases h
        cases hcompleted
      · cases h

/-- A chunk that returns never completes the pass. -/
theorem not_completed_of_chunkFinish {finish : Finish} (h : w.chunkFinish a = some finish) :
    finish.completed = false := by
  unfold chunkFinish at h
  simp only at h
  repeat' split at h
  all_goals first
    | rw [← Option.some.inj h]
    | cases h

/-! ## The whole loop -/

/-- The worker at the top of the iteration after these answers, if the loop gets there. -/
def atTop (w : ScanWorker) : List ChunkAnswers → Option ScanWorker
  | [] => some w
  | a :: rest =>
    match w.loopTop a, w.chunkFinish a with
    | none, none => (w.afterChunk a).atTop rest
    | _, _ => none

theorem atTop_cons_eq_some {rest : List ChunkAnswers} (h : w.atTop (a :: rest) = some v) :
    w.loopTop a = none ∧ w.chunkFinish a = none ∧ (w.afterChunk a).atTop rest = some v := by
  unfold atTop at h
  split at h
  · rename_i htop hgoes
    exact ⟨htop, hgoes, h⟩
  · cases h

/-- The loop keeps its total, and its cursor stays within it once it is. -/
theorem atTop_bounded (answers : List ChunkAnswers) : ∀ {w : ScanWorker},
    w.atTop answers = some v → v.scan.activeTotal = w.scan.activeTotal ∧
      v.scan.activeCursor ≤ max w.scan.activeCursor w.scan.activeTotal := by
  induction answers with
  | nil =>
    intro w h
    cases h
    exact ⟨rfl, le_max_left _ _⟩
  | cons a rest ih =>
    intro w h
    obtain ⟨-, -, hrest⟩ := atTop_cons_eq_some h
    obtain ⟨htotal, hcursor⟩ := ih hrest
    rw [afterChunk_activeTotal] at htotal hcursor
    rw [afterChunk_activeCursor, max_eq_right cursorAfter_le_activeTotal] at hcursor
    exact ⟨htotal, le_max_of_le_right hcursor⟩

theorem chunkLoop_cons (rest : List ChunkAnswers) :
    (w.chunkLoop (a :: rest)).2 =
      match w.loopTop a, w.chunkFinish a with
      | some finish, _ => (w, some finish)
      | none, some finish => (w.afterChunk a, some finish)
      | none, none => ((w.afterChunk a).chunkLoop rest).2 := by
  rw [chunkLoop]
  cases w.loopTop a with
  | some finish => rfl
  | none =>
    cases w.chunkFinish a with
    | some finish => rfl
    | none => rfl

/-- Where the loop leaves the worker, returned or not. -/
theorem chunkLoop_bounded (answers : List ChunkAnswers) : ∀ {w : ScanWorker},
    (w.chunkLoop answers).2.1.scan.activeTotal = w.scan.activeTotal ∧
      (w.chunkLoop answers).2.1.scan.activeCursor ≤
        max w.scan.activeCursor w.scan.activeTotal := by
  induction answers with
  | nil => exact ⟨rfl, le_max_left _ _⟩
  | cons a rest ih =>
    intro w
    have hchunk : (w.afterChunk a).scan.activeCursor ≤
        max w.scan.activeCursor w.scan.activeTotal := by
      rw [afterChunk_activeCursor]
      exact le_max_of_le_right cursorAfter_le_activeTotal
    rw [chunkLoop_cons]
    cases w.loopTop a with
    | some finish => exact ⟨rfl, le_max_left _ _⟩
    | none =>
      cases w.chunkFinish a with
      | some finish => exact ⟨afterChunk_activeTotal, hchunk⟩
      | none =>
        obtain ⟨htotal, hcursor⟩ := ih (w := w.afterChunk a)
        rw [afterChunk_activeTotal] at htotal hcursor
        exact ⟨htotal, hcursor.trans (max_le hchunk (le_max_right _ _))⟩

/-- The loop completes a pass only at its top. -/
theorem passDone_of_chunkLoop (answers : List ChunkAnswers) : ∀ {w : ScanWorker} {finish : Finish},
    (w.chunkLoop answers).2.2 = some finish → finish.completed = true →
      (w.chunkLoop answers).2.1.PassDone := by
  induction answers with
  | nil =>
    intro w finish h
    cases h
  | cons a rest ih =>
    intro w finish h hcompleted
    rw [chunkLoop_cons] at h ⊢
    cases htop : w.loopTop a with
    | some first =>
      rw [htop] at h
      cases h
      exact passDone_of_loopTop htop hcompleted
    | none =>
      rw [htop] at h
      cases hchunk : w.chunkFinish a with
      | some last =>
        rw [hchunk] at h
        cases h
        exact absurd hcompleted (by simp [not_completed_of_chunkFinish hchunk])
      | none =>
        rw [hchunk] at h
        exact ih h hcompleted

theorem chunkLoop_ends_of_limitReached (h : w.limitReached = true) (a : ChunkAnswers)
    (rest : List ChunkAnswers) : (w.chunkLoop (a :: rest)).2.2 = some ⟨true, []⟩ := by
  rw [chunkLoop_cons, loopTop_of_limitReached h]

/-- **The loop ends**: each iteration that goes on brings the cursor nearer to the total or
is the last but one. -/
theorem chunkLoop_terminates (n : ℕ) : ∀ (w : ScanWorker) (answers : ℕ → ChunkAnswers),
    w.scan.activeTotal - w.scan.activeCursor ≤ n →
      (w.chunkLoop ((List.range (n + 2)).map answers)).2.2 ≠ none := by
  induction n with
  | zero =>
    intro w answers h
    have htop : w.loopTop (answers 0) ≠ none := fun htop => by
      have := lt_activeTotal_of_loopTop htop
      omega
    rw [List.range_succ_eq_map, List.map_cons, chunkLoop_cons]
    cases hfirst : w.loopTop (answers 0) with
    | some finish => exact Option.some_ne_none _
    | none => exact absurd hfirst htop
  | succ n ih =>
    intro w answers h
    rw [List.range_succ_eq_map, List.map_cons, List.map_map, chunkLoop_cons]
    cases htop : w.loopTop (answers 0) with
    | some finish => exact Option.some_ne_none _
    | none =>
      cases hchunk : w.chunkFinish (answers 0) with
      | some finish => exact Option.some_ne_none _
      | none =>
        rcases activeCursor_lt_of_continues htop hchunk with hmoved | hlimit
        · refine ih (w.afterChunk (answers 0)) (answers ∘ Nat.succ) ?_
          rw [afterChunk_activeCursor, afterChunk_activeTotal]
          have := lt_activeTotal_of_loopTop htop
          omega
        · simp only
          rw [List.range_succ_eq_map, List.map_cons, chunkLoop_ends_of_limitReached hlimit]
          exact Option.some_ne_none _

/-! ## The guarantee -/

/-- The worker with which `runChunks` enters its loop. -/
def entering (w : ScanWorker) : ScanWorker :=
  { w with scan := { w.scan with
    found := if w.persist = true ∧ 0 ≤ w.scan.resultListId then w.results.length
      else w.scan.found } }

/-- What holds of the chunk loop of a worker whatever its core answers. -/
structure LoopGuaranteed (w : ScanWorker) : Prop where
  ends : ∀ answers : ℕ → ChunkAnswers,
    (w.runChunks ((List.range (w.scan.activeTotal - w.scan.activeCursor + 2)).map answers)).2.2 ≠
      none
  /-- An iteration that does not return moves the cursor on or is followed by the one that
  completes the pass. -/
  advances : ∀ {answers : List ChunkAnswers} {a : ChunkAnswers} {v : ScanWorker},
    w.entering.atTop answers = some v → v.loopTop a = none → v.chunkFinish a = none →
      v.scan.activeCursor < (v.afterChunk a).scan.activeCursor ∨
        v.scan.activeCursor ≤ (v.afterChunk a).scan.activeCursor ∧
          (v.afterChunk a).rescanPass = false ∧ (v.afterChunk a).PassDone ∧
          ∀ b, (v.afterChunk a).loopTop b = some ⟨true, []⟩
  /-- A cursor that starts within the total stays there, at every top and at the end. -/
  within : ∀ {answers : List ChunkAnswers}, w.scan.activeCursor ≤ w.scan.activeTotal →
    (∀ v, w.entering.atTop answers = some v → v.scan.activeCursor ≤ w.scan.activeTotal) ∧
      (w.runChunks answers).2.1.scan.activeCursor ≤ w.scan.activeTotal
  /-- After a chunk it is within the total wherever it started. -/
  chunkWithin : ∀ {answers : List ChunkAnswers} {a : ChunkAnswers} {v : ScanWorker},
    w.entering.atTop answers = some v →
      (v.afterChunk a).scan.activeCursor ≤ w.scan.activeTotal
  completes : ∀ {answers : List ChunkAnswers} {finish : Finish},
    (w.runChunks answers).2.2 = some finish → finish.completed = true →
      (w.runChunks answers).2.1.PassDone

theorem entering_activeCursor : w.entering.scan.activeCursor = w.scan.activeCursor := rfl

theorem entering_activeTotal : w.entering.scan.activeTotal = w.scan.activeTotal := rfl

/-- **The chunk loop ends, keeps its cursor within the total and completes a pass only when
it is done**, whatever the core answers. -/
theorem runChunks_guaranteed (w : ScanWorker) : w.LoopGuaranteed where
  ends answers := chunkLoop_terminates _ w.entering answers le_rfl
  advances := by
    intro answers a v _ htop hgoes
    rw [afterChunk_activeCursor]
    rcases activeCursor_lt_of_continues htop hgoes with hmoved | hlimit
    · exact Or.inl hmoved
    · have hdone := limitReached_iff.mp hlimit
      exact Or.inr ⟨activeCursor_le_cursorAfter (lt_activeTotal_of_loopTop htop).le, hdone.1,
        Or.inr hdone, loopTop_of_limitReached hlimit⟩
  within := by
    intro answers hle
    have hmax : max w.scan.activeCursor w.scan.activeTotal = w.scan.activeTotal :=
      max_eq_right hle
    refine ⟨fun v hv => ?_, ?_⟩
    · rw [← hmax]
      exact (atTop_bounded answers hv).2
    · rw [← hmax]
      exact (chunkLoop_bounded answers).2
  chunkWithin := by
    intro answers a v hv
    rw [afterChunk_activeCursor, ← entering_activeTotal, ← (atTop_bounded answers hv).1]
    exact cursorAfter_le_activeTotal
  completes := passDone_of_chunkLoop _

/-- An initial scan that stops after one result. -/
def sampleLimited : ScanWorker :=
  let scan : IpScan :=
    { (sampleRescan []).scan with
      config := { sampleConfig with configTest := false, tcp := true, stopAfter := 1 }
      mode := .initial, total := 2 }
  { sampleRescan [] with scan }

/-- A core that reports one hit and no next cursor. -/
def sampleHit : CallAnswers :=
  { sampleCall (fun _ => []) with
    probe := fun _ => .ok
      { total := 2, nextCursor := 0, aborted := false, sampledEntries := 0, invalidEntries := 0
        error := [], results := [⟨"1.1.1.1".toList, 443, true, 0, 5, 0, 0, 0, false, 0⟩] } }

/-- The hit fills the result list: the iteration does not return, and its cursor stands
still. -/
theorem limit_without_progress :
    ¬∀ (w v : ScanWorker) (answers : List ChunkAnswers) (a : ChunkAnswers),
      w.entering.atTop answers = some v → v.loopTop a = none → v.chunkFinish a = none →
        v.scan.activeCursor < (v.afterChunk a).scan.activeCursor := by
  intro h
  have hstill := h sampleLimited sampleLimited.entering [] (sampleAnswers sampleHit) rfl
    (by decide +kernel) (by decide +kernel)
  exact absurd hstill (by decide +kernel)

end ScanWorker

end Throned.Scanner
