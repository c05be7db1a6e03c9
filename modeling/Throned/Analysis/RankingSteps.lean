import Throned.Model.AutoSelector
import Mathlib.Data.Finset.Union
import Mathlib.Tactic.Common

/-!
# The thread of a ranking

The semaphore has been released once for the quorum and once for the end of the tests, and the
thread has acquired it once when it has started early.  So it never waits in vain once the tests
have ended, and it takes nine steps at most.  The working members are counted from the results in
the order in which they came.
-/

set_option autoImplicit false

namespace Throned.Engine.AutoSelector

/-! ## What the results say -/

/-- What a member's last result says. -/
def lastResult (results : List (ℤ × Bool)) (member : ℤ) : Option Bool :=
  (results.filter (·.1 = member)).getLast?.map Prod.snd

/-- The members measured working and not since measured failing. -/
def workingOf (results : List (ℤ × Bool)) : Finset ℤ :=
  (results.map Prod.fst).toFinset.filter fun member => lastResult results member = some true

theorem lastResult_append (results : List (ℤ × Bool)) (m member : ℤ) (works : Bool) :
    lastResult (results ++ [(m, works)]) member =
      if m = member then some works else lastResult results member := by
  unfold lastResult
  rw [List.filter_append]
  split
  · rename_i heq
    rw [List.filter_cons_of_pos (by simpa using heq), List.filter_nil, List.getLast?_concat]
    rfl
  · rename_i hne
    rw [List.filter_cons_of_neg (by simpa using hne), List.filter_nil, List.append_nil]

theorem mem_workingOf {results : List (ℤ × Bool)} {member : ℤ} :
    member ∈ workingOf results ↔ lastResult results member = some true := by
  unfold workingOf
  rw [Finset.mem_filter, and_iff_right_iff_imp]
  intro hlast
  unfold lastResult at hlast
  obtain ⟨m, hm, -⟩ := Option.map_eq_some_iff.mp hlast
  have hmem := List.mem_of_getLast? hm
  rw [List.mem_filter] at hmem
  rw [List.mem_toFinset]
  exact List.mem_map.mpr ⟨m, hmem.1, of_decide_eq_true hmem.2⟩

theorem workingOf_append (results : List (ℤ × Bool)) (member : ℤ) (works : Bool) :
    workingOf (results ++ [(member, works)]) =
      if works then insert member (workingOf results) else (workingOf results).erase member := by
  ext id
  rw [mem_workingOf, lastResult_append]
  cases works with
  | true =>
    rw [if_pos rfl, Finset.mem_insert, mem_workingOf]
    by_cases hid : member = id
    · simp [hid]
    · simp [hid, Ne.symm hid]
  | false =>
    rw [if_neg Bool.false_ne_true, Finset.mem_erase, mem_workingOf]
    by_cases hid : member = id
    · simp [hid]
    · simp [hid, Ne.symm hid]

/-! ## The candidates -/

/-- The members that are known to work: measured before, and not stale. -/
def knownOf (pool : Pool) (stale : List ℤ) : List ℤ :=
  pool.candidates.filter fun id => id ∉ stale ∧ 0 < pool.effectiveLatencyOf id

def neededOf (pool : Pool) (stale : List ℤ) : List ℤ :=
  pool.candidates.filter fun id => id ∈ stale ∨ pool.effectiveLatencyOf id = 0

/-- The loop measures what is stale or has no result, and counts what works. -/
theorem unmeasuredCandidates_eq (pool : Pool) (stale : List ℤ) :
    AutoSelectorUnmeasuredCandidates pool stale =
      (neededOf pool stale, (knownOf pool stale).length) := by
  unfold AutoSelectorUnmeasuredCandidates neededOf knownOf
  induction pool.candidates using List.reverseRecOn with
  | nil => rfl
  | append_singleton ids id ih =>
    rw [List.foldl_append, ih, List.foldl_cons, List.foldl_nil, List.filter_append,
      List.filter_append, List.length_append]
    by_cases hstale : id ∈ stale
    · simp [hstale]
    · by_cases hzero : pool.effectiveLatencyOf id = 0
      · simp [hstale, hzero]
      · by_cases hpos : 0 < pool.effectiveLatencyOf id
        · simp [hstale, hzero, hpos]
        · simp [hstale, hzero, hpos]

theorem nodup_knownOf (pool : Pool) (stale : List ℤ) : (knownOf pool stale).Nodup :=
  pool.nodup.filter _

theorem notMem_knownOf {pool : Pool} {stale : List ℤ} {id : ℤ} (h : id ∈ neededOf pool stale) :
    id ∉ knownOf pool stale := by
  intro hknown
  have hneeded := of_decide_eq_true (List.mem_filter.mp h).2
  have hworks := of_decide_eq_true (List.mem_filter.mp hknown).2
  rcases hneeded with hstale | hzero
  · exact hworks.1 hstale
  · rw [hzero] at hworks
    exact lt_irrefl 0 hworks.2

/-! ## Signals -/

/-- Where the permits of the semaphore went. -/
def Permits (r : Ranking) : Prop :=
  let released := r.sweep.quorumMet.toNat + r.sweep.done.toNat
  match r.pc with
  | .entered => r.sweep = {} ∧ r.results = [] ∧ r.startedEarly = false
  | .testing =>
    r.results = [] ∧ r.startedEarly = false ∧ r.sweep.wake = released ∧ r.sweep.done = false
  | .checking => r.startedEarly = false ∧ r.sweep.wake = released
  | .waiting => r.sweep.wake + r.startedEarly.toNat = released
  | .woken => r.sweep.wake + r.startedEarly.toNat + 1 = released
  | .startingEarly => r.startedEarly = true ∧ r.sweep.wake + 1 = released
  | .leaving => r.sweep.done = true
  | .returned startedEarly => r.startedEarly = startedEarly ∧ (startedEarly = false → r.reranked)

/-- The steps that can lie behind the thread. -/
def stepBound (pc : RankPc) (startedEarly : Bool) : ℕ :=
  match pc with
  | .entered => 0
  | .testing => 1
  | .checking => 2
  | .waiting => if startedEarly then 6 else 3
  | .woken => if startedEarly then 7 else 4
  | .startingEarly => 5
  | .leaving => 8
  | .returned _ => 9

structure Signals (r : Ranking) : Prop where
  done : r.sweep.done = r.finished
  permits : Permits r
  met : r.startedEarly = true → r.sweep.quorumMet = true
  posts : r.posts = if r.startedEarly ∧ r.pc ≠ .startingEarly then 1 else 0
  steps : r.steps ≤ stepBound r.pc r.startedEarly

theorem signals_new (st : Start) (exhausted : Bool) (stale : List ℤ) :
    Signals { start := st, exhausted, stale } where
  done := rfl
  permits := ⟨rfl, rfl, rfl⟩
  met := fun h => nomatch h
  posts := rfl
  steps := Nat.le_refl 0

theorem signalQuorum_done (s : Sweep) : s.signalQuorum.done = s.done := by
  unfold Sweep.signalQuorum
  split <;> rfl

theorem signalQuorum_wake (s : Sweep) :
    s.signalQuorum.wake + s.quorumMet.toNat = s.wake + s.signalQuorum.quorumMet.toNat := by
  unfold Sweep.signalQuorum
  split
  · rfl
  · rename_i h
    have hmet : s.quorumMet = false := by
      cases hq : s.quorumMet with
      | false => rfl
      | true => simp [hq] at h
    simp [hmet]

theorem signalQuorum_met {s : Sweep} (h : s.quorumMet = true) : s.signalQuorum.quorumMet = true := by
  unfold Sweep.signalQuorum
  rw [if_pos (by simp [h])]
  exact h

section Steps

variable {r : Ranking}

/-- **A step of the thread**, by where it stands. -/
theorem Signals.advance (h : Signals r) (hcan : r.canAdvance = true) (env : RankEnv) :
    Signals { (r.advance env).1 with steps := r.steps + 1 } := by
  have hdone := h.done
  have hpermits := h.permits
  have hmet := h.met
  have hposts := h.posts
  have hsteps := h.steps
  unfold Permits at hpermits
  unfold Ranking.canAdvance at hcan
  unfold Ranking.advance
  cases hpc : r.pc with
  | entered =>
    rw [hpc] at hpermits hposts hsteps
    obtain ⟨hsweep, hresults, hearly⟩ := hpermits
    rw [hearly] at hposts hsteps
    have hzero : r.steps = 0 := Nat.le_zero.mp hsteps
    rw [hsweep] at hdone
    dsimp only
    split
    · refine ⟨hdone, ⟨hearly, fun _ => rfl⟩, ?_, ?_, ?_⟩
      · exact fun he => absurd (hearly.symm.trans he) Bool.false_ne_true
      · simpa [hearly] using hposts
      · simp [stepBound, hzero]
    · refine ⟨hdone, ⟨hresults, hearly, rfl, rfl⟩, ?_, ?_, ?_⟩
      · exact fun he => absurd (hearly.symm.trans he) Bool.false_ne_true
      · simpa [hearly] using hposts
      · simp [stepBound, hzero]
  | testing =>
    rw [hpc] at hpermits hposts hsteps
    obtain ⟨-, hearly, hwake, hnot⟩ := hpermits
    rw [hearly] at hposts hsteps
    have hone : r.steps ≤ 1 := hsteps
    dsimp only
    split
    · refine ⟨hdone, ⟨hearly, hwake⟩, hmet, ?_, ?_⟩
      · simpa [hearly] using hposts
      · simpa [stepBound] using hone
    · refine ⟨rfl, ?_, hmet, ?_, ?_⟩
      · simp only [Permits, Sweep.onFinished, hwake, hearly, hnot, Bool.toNat_false, Bool.toNat_true,
          Nat.add_zero]
      · simpa [hearly] using hposts
      · simp only [stepBound, hearly, Bool.false_eq_true, if_false]
        omega
  | checking =>
    rw [hpc] at hpermits hposts hsteps
    obtain ⟨hearly, hwake⟩ := hpermits
    rw [hearly] at hposts hsteps
    have htwo : r.steps ≤ 2 := hsteps
    have hsignal := signalQuorum_wake r.sweep
    refine ⟨(signalQuorum_done _).trans hdone, ?_, ?_, ?_, ?_⟩
    · simp only [Permits, hearly, Bool.toNat_false, Nat.add_zero, signalQuorum_done]
      omega
    · exact fun he => absurd (hearly.symm.trans he) Bool.false_ne_true
    · simpa [hearly] using hposts
    · simp only [stepBound, hearly, Bool.false_eq_true, if_false]
      omega
  | waiting =>
    rw [hpc] at hpermits hposts hsteps hcan
    dsimp only at hpermits hcan ⊢
    have hpos : 0 < r.sweep.wake := of_decide_eq_true hcan
    rw [if_pos hpos]
    refine ⟨hdone, ?_, hmet, by simpa using hposts, ?_⟩
    · simp only [Permits]
      omega
    · simp only [stepBound] at hsteps ⊢
      split at hsteps
      · rename_i he
        rw [if_pos he]
        omega
      · rename_i he
        rw [if_neg he]
        omega
  | woken =>
    rw [hpc] at hpermits hposts hsteps
    dsimp only at hpermits ⊢
    split
    · rename_i hd
      refine ⟨hdone, hd, hmet, by simpa using hposts, ?_⟩
      simp only [stepBound] at hsteps ⊢
      split at hsteps <;> omega
    · rename_i hd
      have hd' : r.sweep.done = false := Bool.eq_false_iff.mpr hd
      rw [hd', Bool.toNat_false] at hpermits
      -- the permit that was acquired is the one for the quorum
      have hearly : r.startedEarly = false := by
        have := Bool.toNat_le r.sweep.quorumMet
        cases he : r.startedEarly with
        | false => rfl
        | true =>
          rw [he, Bool.toNat_true] at hpermits
          omega
      have hq : r.sweep.quorumMet = true := by
        cases hq : r.sweep.quorumMet with
        | true => rfl
        | false =>
          rw [hq, Bool.toNat_false] at hpermits
          omega
      rw [hearly] at hposts hsteps hpermits
      rw [if_neg (by simp [hearly, hq])]
      refine ⟨hdone, ⟨rfl, ?_⟩, fun _ => hq, ?_, ?_⟩
      · simp only [hd', Bool.toNat_false]
        exact hpermits
      · simpa using hposts
      · simp only [stepBound] at hsteps ⊢
        simp at hsteps
        omega
  | startingEarly =>
    rw [hpc] at hpermits hposts hsteps
    obtain ⟨hearly, hwake⟩ := hpermits
    refine ⟨hdone, ?_, hmet, ?_, ?_⟩
    · simp only [Permits, hearly, Bool.toNat_true]
      exact hwake
    · simp [hearly, hposts]
    · simp only [stepBound] at hsteps ⊢
      rw [if_pos hearly]
      omega
  | leaving =>
    rw [hpc] at hpermits hposts hsteps
    simp only [stepBound] at hsteps
    dsimp only
    split
    · rename_i hearly
      refine ⟨hdone, ⟨hearly, fun h => nomatch h⟩, hmet, ?_, ?_⟩
      · simpa [hearly] using hposts
      · simp only [stepBound]
        omega
    · rename_i hearly
      have hearly' := Bool.eq_false_iff.mpr hearly
      refine ⟨hdone, ⟨hearly', fun _ => rfl⟩, hmet, ?_, ?_⟩
      · simpa [hearly'] using hposts
      · simp only [stepBound]
        omega
  | returned startedEarly =>
    rw [hpc] at hcan
    cases hcan

theorem advance_steps (env : RankEnv) : (r.advance env).1.steps = r.steps := by
  unfold Ranking.advance
  split <;> (try split) <;> (try split) <;> rfl

theorem Signals.takeStep (h : Signals r) (env : RankEnv) : Signals (r.takeStep env).1 := by
  unfold Ranking.takeStep
  split
  · rename_i hcan
    have hnext := h.advance hcan env
    dsimp only
    rw [advance_steps]
    exact hnext
  · exact h

/-- What a result or the end of the tests may do to a sweep. -/
theorem Signals.setSweep (h : Signals r) (hacc : r.accepted = true) {sweep : Sweep}
    {results : List (ℤ × Bool)} {finished : Bool} (hdone : sweep.done = finished)
    (hkeep : r.sweep.done = true → sweep.done = true)
    (hmet : r.sweep.quorumMet = true → sweep.quorumMet = true)
    (hwake : sweep.wake + r.sweep.quorumMet.toNat + r.sweep.done.toNat =
      r.sweep.wake + sweep.quorumMet.toNat + sweep.done.toNat) :
    Signals { r with sweep, results, finished } := by
  refine ⟨hdone, ?_, fun he => hmet (h.met he), h.posts, h.steps⟩
  have hpermits := h.permits
  unfold Permits at hpermits ⊢
  unfold Ranking.accepted at hacc
  cases hpc : r.pc with
  | entered =>
    rw [hpc] at hacc
    cases hacc
  | testing =>
    rw [hpc] at hacc
    cases hacc
  | checking =>
    rw [hpc] at hpermits
    obtain ⟨hearly, hwait⟩ := hpermits
    refine ⟨hearly, ?_⟩
    dsimp only
    omega
  | waiting =>
    rw [hpc] at hpermits
    dsimp only at hpermits ⊢
    omega
  | woken =>
    rw [hpc] at hpermits
    dsimp only at hpermits ⊢
    omega
  | startingEarly =>
    rw [hpc] at hpermits
    obtain ⟨hearly, hwait⟩ := hpermits
    refine ⟨hearly, ?_⟩
    dsimp only
    omega
  | leaving =>
    rw [hpc] at hpermits
    exact hkeep hpermits
  | returned startedEarly =>
    rw [hpc] at hpermits
    exact hpermits

theorem Signals.takeResult (h : Signals r) (member : ℤ) (works : Bool) :
    Signals (r.takeResult member works) := by
  unfold Ranking.takeResult
  split
  · rename_i hmay
    refine h.setSweep hmay.1 ((signalQuorum_done _).trans h.done) ?_ ?_ ?_
    · exact fun hd => (signalQuorum_done _).trans hd
    · exact fun hq => signalQuorum_met hq
    · have hsignal := signalQuorum_wake { r.sweep with
        measured := insert member r.sweep.measured
        working := if works then insert member r.sweep.working
          else r.sweep.working.erase member }
      simp only [Sweep.onResult, signalQuorum_done]
      dsimp only at hsignal
      omega
  · exact h

theorem Signals.takeEnd (h : Signals r) : Signals r.takeEnd := by
  unfold Ranking.takeEnd
  split
  · rename_i hmay
    have hnot : r.sweep.done = false := by
      rw [h.done]
      simpa using hmay.2
    refine h.setSweep hmay.1 rfl (fun _ => rfl) id ?_
    simp only [Sweep.onFinished, hnot, Bool.toNat_false, Bool.toNat_true]
    omega
  · exact h

/-! ## The end of the thread -/

/-- **The thread waits for nothing but the end of its tests.** -/
theorem Signals.canAdvance (h : Signals r) (hend : r.finished = true)
    (hpc : ∀ startedEarly, r.pc ≠ .returned startedEarly) : r.canAdvance = true := by
  have hpermits := h.permits
  unfold Permits at hpermits
  unfold Ranking.canAdvance
  split
  · rename_i b hb
    exact absurd hb (hpc b)
  · rename_i hwait
    rw [hwait] at hpermits
    have hdone : r.sweep.done = true := h.done.trans hend
    rw [hdone, Bool.toNat_true] at hpermits
    have hmet := h.met
    rw [decide_eq_true_eq]
    cases he : r.startedEarly with
    | false =>
      rw [he, Bool.toNat_false] at hpermits
      omega
    | true =>
      rw [he, Bool.toNat_true, hmet he, Bool.toNat_true] at hpermits
      omega
  · rfl

theorem stepBound_le (pc : RankPc) (startedEarly : Bool) : stepBound pc startedEarly ≤ 9 := by
  cases pc <;> cases startedEarly <;> simp [stepBound]

theorem advance_finished (env : RankEnv) (hend : r.finished = true) :
    (r.advance env).1.finished = true := by
  unfold Ranking.advance
  split <;> (try split) <;> (try split) <;> first | exact hend | rfl

theorem takeStep_of_canAdvance (hcan : r.canAdvance = true) (env : RankEnv) :
    (r.takeStep env).1 = { (r.advance env).1 with steps := (r.advance env).1.steps + 1 } := by
  unfold Ranking.takeStep
  rw [if_pos hcan]

/-- **The thread returns within nine steps** once its tests have ended. -/
theorem Signals.returns (h : Signals r) (hend : r.finished = true) (env : RankEnv) :
    ∃ n ≤ 9 - r.steps, ∃ startedEarly,
      ((fun r => (r.takeStep env).1)^[n] r).pc = .returned startedEarly := by
  induction hleft : 9 - r.steps generalizing r with
  | zero =>
    by_cases hpc : ∃ startedEarly, r.pc = .returned startedEarly
    · exact ⟨0, Nat.le_refl 0, hpc⟩
    · have hcan := h.canAdvance hend fun b hb => hpc ⟨b, hb⟩
      have hnext := (h.advance hcan env).steps
      have hbound := stepBound_le (r.advance env).1.pc (r.advance env).1.startedEarly
      dsimp only at hnext
      omega
  | succ left ih =>
    by_cases hpc : ∃ startedEarly, r.pc = .returned startedEarly
    · exact ⟨0, Nat.zero_le _, hpc⟩
    · have hcan := h.canAdvance hend fun b hb => hpc ⟨b, hb⟩
      have hstep := takeStep_of_canAdvance hcan env
      have hend' : (r.takeStep env).1.finished = true := by
        rw [hstep]
        exact advance_finished env hend
      have hcount : (r.takeStep env).1.steps = r.steps + 1 := by
        rw [hstep]
        exact congrArg (· + 1) (advance_steps env)
      obtain ⟨n, hn, hreturned⟩ := ih (h.takeStep env) hend' (by omega)
      exact ⟨n + 1, Nat.succ_le_succ hn, hreturned⟩

/-! ## Counts -/

/-- The quorum was reached by the members that worked at some time of the sweep. -/
def QuorumReached (r : Ranking) : Prop :=
  0 < r.sweep.quorum ∧ ∃ n ≤ r.results.length,
    r.sweep.quorum ≤ (r.known.toFinset ∪ workingOf (r.results.take n)).card

/-- What a sweep counts. -/
structure Counts (r : Ranking) : Prop where
  fresh : r.pc = .entered → r.sweep = {} ∧ r.results = [] ∧ r.needed = []
  before : r.pc ≠ .entered → r.sweep.workingBefore = r.known.length
  asks : r.pc ≠ .entered → (∀ b, r.pc ≠ .returned b) → r.needed ≠ []
  nodup : r.known.Nodup
  disjoint : ∀ id ∈ r.needed, id ∉ r.known
  results : ∀ m ∈ r.results, m.1 ∈ r.needed
  working : r.sweep.working = workingOf r.results
  met : r.sweep.quorumMet = true → QuorumReached r

theorem counts_new (st : Start) (exhausted : Bool) (stale : List ℤ) :
    Counts { start := st, exhausted, stale } where
  fresh := fun _ => ⟨rfl, rfl, rfl⟩
  before := fun h => absurd rfl h
  asks := fun h => absurd rfl h
  nodup := List.nodup_nil
  disjoint := fun _ h => (List.not_mem_nil h).elim
  results := fun _ h => (List.not_mem_nil h).elim
  working := rfl
  met := fun h => nomatch h

/-- The members known before and those measured are counted once each. -/
theorem Counts.card_union (h : Counts r) {results : List (ℤ × Bool)}
    (hsub : ∀ m ∈ results, m.1 ∈ r.needed) :
    (r.known.toFinset ∪ workingOf results).card = r.known.length + (workingOf results).card := by
  rw [Finset.card_union_of_disjoint, List.toFinset_card_of_nodup h.nodup]
  rw [Finset.disjoint_left]
  intro id hknown hworking
  unfold workingOf at hworking
  rw [Finset.mem_filter, List.mem_toFinset] at hworking
  obtain ⟨m, hm, rfl⟩ := List.mem_map.mp hworking.1
  exact h.disjoint _ (hsub m hm) (List.mem_toFinset.mp hknown)

/-- What the quorum is checked against is what the results say. -/
theorem Counts.quorumReached (h : Counts r) (hpc : r.pc ≠ .entered)
    (hreached : r.sweep.reachedQuorum = true) : QuorumReached r := by
  unfold Sweep.reachedQuorum at hreached
  obtain ⟨hpos, hcard⟩ := of_decide_eq_true hreached
  refine ⟨hpos, r.results.length, Nat.le_refl _, ?_⟩
  rw [List.take_length, h.card_union h.results, ← h.before hpc, ← h.working]
  exact_mod_cast hcard

/-- A sweep that only signals keeps its counts. -/
theorem Counts.signalQuorum (h : Counts r) {pc : RankPc} (hpc : r.pc ≠ .entered)
    (hnext : pc ≠ .entered) (hasks : pc ≠ .entered → (∀ b, pc ≠ .returned b) → r.needed ≠ []) :
    Counts { r with sweep := r.sweep.signalQuorum, pc := pc } := by
  have hsame : r.sweep.signalQuorum.workingBefore = r.sweep.workingBefore ∧
      r.sweep.signalQuorum.working = r.sweep.working ∧
        r.sweep.signalQuorum.quorum = r.sweep.quorum := by
    unfold Sweep.signalQuorum
    split <;> exact ⟨rfl, rfl, rfl⟩
  obtain ⟨hbefore, hworking, hquorum⟩ := hsame
  refine ⟨fun he => absurd he hnext, fun _ => hbefore.trans (h.before hpc), hasks, h.nodup,
    h.disjoint, h.results, hworking.trans h.working, fun hmet => ?_⟩
  have hreached : QuorumReached r := by
    unfold Sweep.signalQuorum at hmet
    split at hmet
    · exact h.met hmet
    · rename_i hnot
      refine h.quorumReached hpc ?_
      by_contra hfalse
      exact hnot (by simp [hfalse])
  obtain ⟨hpos, n, hn, hcard⟩ := hreached
  exact ⟨hquorum ▸ hpos, n, hn, hquorum ▸ hcard⟩

/-- What does not touch the counts keeps them. -/
theorem Counts.congr (h : Counts r) {r' : Ranking} (hpc : r.pc ≠ .entered)
    (hpc' : r'.pc ≠ .entered)
    (hret : (∀ b, r'.pc ≠ .returned b) → ∀ b, r.pc ≠ .returned b) (hneeded : r'.needed = r.needed) (hknown : r'.known = r.known)
    (hresults : r'.results = r.results)
    (hbefore : r'.sweep.workingBefore = r.sweep.workingBefore)
    (hworking : r'.sweep.working = r.sweep.working) (hquorum : r'.sweep.quorum = r.sweep.quorum)
    (hmet : r'.sweep.quorumMet = r.sweep.quorumMet) : Counts r' where
  fresh := fun he => absurd he hpc'
  before := fun _ => by rw [hbefore, hknown, h.before hpc]
  asks := fun _ hr => hneeded ▸ h.asks hpc (hret hr)
  nodup := hknown ▸ h.nodup
  disjoint := by
    rw [hneeded, hknown]
    exact h.disjoint
  results := by
    rw [hresults, hneeded]
    exact h.results
  working := by rw [hworking, hresults, h.working]
  met := fun hm => by
    unfold QuorumReached
    rw [hquorum, hresults, hknown]
    exact h.met (hmet ▸ hm)

theorem Counts.advance (h : Counts r) (env : RankEnv) : Counts (r.advance env).1 := by
  unfold Ranking.advance
  cases hpc : r.pc with
  | entered =>
    obtain ⟨-, hresults, hneeded⟩ := h.fresh hpc
    simp only [unmeasuredCandidates_eq]
    have hworking : (∅ : Finset ℤ) = workingOf r.results := by
      rw [hresults]
      rfl
    split
    · refine ⟨by simp, fun _ => rfl, by simp, nodup_knownOf _ _, ?_, h.results, hworking, by simp⟩
      intro id hid
      rw [hneeded] at hid
      cases hid
    · rename_i hneeds
      refine ⟨by simp, fun _ => rfl, fun _ _ => hneeds, nodup_knownOf _ _,
        fun id hid => notMem_knownOf hid, ?_, hworking, by simp⟩
      intro m hm
      rw [hresults] at hm
      cases hm
  | testing =>
    have hne : r.pc ≠ .entered := by simp [hpc]
    dsimp only
    split
    · exact h.congr hne (by simp) (by simp [hpc]) rfl rfl rfl rfl rfl rfl rfl
    · exact h.congr hne (by simp) (by simp [hpc]) rfl rfl rfl rfl rfl rfl rfl
  | checking =>
    exact h.signalQuorum (by simp [hpc]) (by simp) fun _ _ => h.asks (by simp [hpc]) (by simp [hpc])
  | waiting =>
    have hne : r.pc ≠ .entered := by simp [hpc]
    dsimp only
    split
    · exact h.congr hne (by simp) (by simp [hpc]) rfl rfl rfl rfl rfl rfl rfl
    · exact h
  | woken =>
    have hne : r.pc ≠ .entered := by simp [hpc]
    dsimp only
    split
    · exact h.congr hne (by simp) (by simp [hpc]) rfl rfl rfl rfl rfl rfl rfl
    · split
      · exact h.congr hne (by simp) (by simp [hpc]) rfl rfl rfl rfl rfl rfl rfl
      · exact h.congr hne (by simp) (by simp [hpc]) rfl rfl rfl rfl rfl rfl rfl
  | startingEarly =>
    exact h.congr (by simp [hpc]) (by simp) (by simp [hpc]) rfl rfl rfl rfl rfl rfl rfl
  | leaving =>
    have hne : r.pc ≠ .entered := by simp [hpc]
    dsimp only
    split
    · exact h.congr hne (by simp) (by simp [hpc]) rfl rfl rfl rfl rfl rfl rfl
    · exact h.congr hne (by simp) (by simp [hpc]) rfl rfl rfl rfl rfl rfl rfl
  | returned startedEarly => exact h

theorem Counts.takeStep (h : Counts r) (env : RankEnv) : Counts (r.takeStep env).1 := by
  unfold Ranking.takeStep
  split
  · have hnext := h.advance env
    exact ⟨hnext.fresh, hnext.before, hnext.asks, hnext.nodup, hnext.disjoint, hnext.results,
      hnext.working, hnext.met⟩
  · exact h

theorem ne_entered_of_accepted (h : r.accepted = true) : r.pc ≠ .entered := by
  intro hpc
  unfold Ranking.accepted at h
  rw [hpc] at h
  cases h

theorem Counts.takeResult (h : Counts r) (member : ℤ) (works : Bool) :
    Counts (r.takeResult member works) := by
  unfold Ranking.takeResult
  split
  · rename_i hmay
    have hpc := ne_entered_of_accepted hmay.1
    have hmeasured : Counts { r with
        sweep := { r.sweep with
          measured := insert member r.sweep.measured
          working := if works then insert member r.sweep.working
            else r.sweep.working.erase member }
        results := r.results ++ [(member, works)] } := by
      refine ⟨fun he => absurd he hpc, h.before, h.asks, h.nodup, h.disjoint, ?_, ?_,
        fun hm => ?_⟩
      · intro m hm
        rcases List.mem_append.mp hm with hm | hm
        · exact h.results m hm
        · rw [List.mem_singleton.mp hm]
          exact hmay.2
      · dsimp only
        rw [workingOf_append, h.working]
      · obtain ⟨hpos, n, hn, hcard⟩ := h.met hm
        refine ⟨hpos, n, ?_, ?_⟩
        · simp only [List.length_append]
          omega
        · rw [List.take_append_of_le_length hn]
          exact hcard
    exact hmeasured.signalQuorum hpc hpc h.asks
  · exact h

theorem Counts.takeEnd (h : Counts r) : Counts r.takeEnd := by
  unfold Ranking.takeEnd
  split
  · rename_i hmay
    have hpc := ne_entered_of_accepted hmay.1
    exact h.congr hpc hpc id rfl rfl rfl rfl rfl rfl rfl
  · exact h

end Steps

end Throned.Engine.AutoSelector
