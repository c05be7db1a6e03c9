import Throned.Analysis.RankingRuns

/-!
# One start, one rebuild

A start owes one launch of its own while it waits or is ranked, and one rebuild until the end of
its ranking and of the sweep behind its early start.  No step makes either of them more, as long as
a resumed start does not ask for another ranking.
-/

set_option autoImplicit false

namespace Throned.Engine.AutoSelector.Controller

open Throned.Library

variable {s s' : Controller}

theorem StartCases.roots {st : Start} {asks : Prop} (h : StartCases s st asks s') :
    s'.roots = s.roots := by
  cases h <;> rfl

/-! ## What a start owes -/

/-- The launch of a start by itself or by a ranking. -/
def ownOf (root : ℕ) (st : Start) : Bool := st.root = root && st.by_ = .start

/-- The launch of a start by `finishEarlySweep`. -/
def rebuildOf (root : ℕ) (st : Start) : Bool := st.root = root && st.by_ = .finishEarlySweep

/-- A start that waits may lead to a rebuild: it is one, or it may still be ranked. -/
def owesRebuild (root : ℕ) (st : Start) : Bool :=
  st.root = root && (st.by_ = .finishEarlySweep || !st.resumed)

def rankingOwesOwn (root : ℕ) (r : Ranking) : Bool := ownOf root r.start && r.resumes = 0

def rankingOwesRebuild (root : ℕ) (r : Ranking) : Bool := r.start.root = root && !r.ended

def taskOwesRebuild (root : ℕ) : Task → Bool
  | .rebuild st _ => st.root = root
  | _ => false

def own (s : Controller) (root : ℕ) : ℕ :=
  s.launched.countP (ownOf root) + s.parked.countP (ownOf root) +
    s.rankings.countP (rankingOwesOwn root)

def rebuilds (s : Controller) (root : ℕ) : ℕ :=
  s.launched.countP (rebuildOf root) + s.parked.countP (owesRebuild root) +
    s.settling.countP (·.root = root) + s.finishing.countP (·.root = root) +
    s.queue.countP (taskOwesRebuild root) + s.rankings.countP (rankingOwesRebuild root)

/-- Who calls the starts of a state. -/
structure Callers (s : Controller) : Prop where
  rankings : ∀ r ∈ s.rankings, r.start.by_ = .start
  settling : ∀ st ∈ s.settling, st.by_ = .finishEarlySweep
  finishing : ∀ st ∈ s.finishing, st.by_ = .finishEarlySweep
  queue : ∀ st changed, Task.rebuild st changed ∈ s.queue → st.by_ = .finishEarlySweep
  parked : ∀ st ∈ s.parked, st.resumed = false → st.by_ = .start

structure Rooted (s : Controller) : Prop where
  own : ∀ root, s.own root ≤ 1
  rebuilds : ∀ root, s.rebuilds root ≤ 1
  fresh : ∀ root, s.roots ≤ root → s.own root = 0 ∧ s.rebuilds root = 0
  callers : Callers s

/-- A step that makes nothing more. -/
theorem Rooted.le (h : Rooted s) (hown : ∀ root, s'.own root ≤ s.own root)
    (hrebuilds : ∀ root, s'.rebuilds root ≤ s.rebuilds root) (hroots : s'.roots = s.roots)
    (hcallers : Callers s') : Rooted s' where
  own := fun root => (hown root).trans (h.own root)
  rebuilds := fun root => (hrebuilds root).trans (h.rebuilds root)
  fresh := by
    intro root hroot
    obtain ⟨ho, hr⟩ := h.fresh root (hroots ▸ hroot)
    exact ⟨Nat.le_zero.mp (ho ▸ hown root), Nat.le_zero.mp (hr ▸ hrebuilds root)⟩
  callers := hcallers

/-! ## Starts -/

variable {st : Start} {asks : Prop}

theorem own_ofCases (h : StartCases s st asks s') (root : ℕ) :
    s'.own root ≤ s.own root + (ownOf root st).toNat := by
  unfold own
  cases h with
  | answered rankedFor => exact Nat.le_add_right _ _
  | parked rankedFor =>
    rw [countP_concat]
    dsimp only
    omega
  | launched rankedFor =>
    rw [countP_concat]
    dsimp only
    omega
  | ranks rankedFor hasks =>
    have hnew : rankingOwesOwn root { start := st, exhausted := false, stale := [] } =
        ownOf root st := Bool.and_true _
    rw [countP_concat, hnew]
    dsimp only
    omega

theorem rebuildOf_le (root : ℕ) (st : Start) :
    (rebuildOf root st).toNat ≤ (owesRebuild root st).toNat := by
  unfold rebuildOf owesRebuild
  cases decide (st.root = root) <;> cases decide (st.by_ = .finishEarlySweep) <;> simp

theorem rebuilds_ofCases (h : StartCases s st asks s') (hasks : asks → st.resumed = false)
    (root : ℕ) : s'.rebuilds root ≤ s.rebuilds root + (owesRebuild root st).toNat := by
  unfold rebuilds
  cases h with
  | answered rankedFor => exact Nat.le_add_right _ _
  | parked rankedFor =>
    rw [countP_concat]
    dsimp only
    omega
  | launched rankedFor =>
    have hle := rebuildOf_le root st
    rw [countP_concat]
    dsimp only
    omega
  | ranks rankedFor hask =>
    have hnew : rankingOwesRebuild root { start := st, exhausted := false, stale := [] } =
        owesRebuild root st := by
      unfold owesRebuild rankingOwesRebuild
      rw [hasks hask, Bool.not_false, Bool.or_true]
    rw [countP_concat, hnew]
    dsimp only
    omega

theorem Callers.ofCases (h : Callers s) (hcases : StartCases s st asks s')
    (hst : st.resumed = false → st.by_ = .start) (hasks : asks → st.resumed = false) :
    Callers s' := by
  obtain ⟨h1, h2, h3, h4, h5⟩ := h
  cases hcases with
  | answered rankedFor => exact ⟨h1, h2, h3, h4, h5⟩
  | launched rankedFor => exact ⟨h1, h2, h3, h4, h5⟩
  | parked rankedFor =>
    refine ⟨h1, h2, h3, h4, fun other hother => ?_⟩
    rcases List.mem_append.mp hother with hother | hother
    · exact h5 other hother
    · rw [List.mem_singleton.mp hother]
      exact hst
  | ranks rankedFor hask =>
    refine ⟨fun r hr => ?_, h2, h3, h4, h5⟩
    rcases List.mem_append.mp hr with hr | hr
    · exact h1 r hr
    · rw [List.mem_singleton.mp hr]
      exact hst (hasks hask)

/-- What owes the start gives it up, and the start takes it over. -/
theorem Rooted.ofCases {before : Controller} (h : Rooted before)
    (hcases : StartCases s st asks s') (hasks : asks → st.resumed = false)
    (hst : st.resumed = false → st.by_ = .start) (hcallers : Callers s)
    (hown : ∀ root, s.own root + (ownOf root st).toNat ≤ before.own root)
    (hrebuilds : ∀ root, s.rebuilds root + (owesRebuild root st).toNat ≤ before.rebuilds root)
    (hroots : s.roots = before.roots) : Rooted s' := by
  refine h.le ?_ ?_ ?_ (hcallers.ofCases hcases hst hasks)
  · exact fun root => (own_ofCases hcases root).trans (hown root)
  · exact fun root => (rebuilds_ofCases hcases hasks root).trans (hrebuilds root)
  · cases hcases <;> exact hroots

theorem ownOf_resumed (root : ℕ) (st : Start) :
    ownOf root { st with resumed := true } = ownOf root st := rfl

theorem owesRebuild_resumed (root : ℕ) (st : Start) :
    owesRebuild root { st with resumed := true } = rebuildOf root st := by
  unfold owesRebuild rebuildOf
  simp

theorem rebuildOf_eq_false {root : ℕ} (h : st.by_ = .start) : rebuildOf root st = false := by
  unfold rebuildOf
  rw [h]
  exact Bool.and_false _

theorem ownOf_eq_false {root : ℕ} (h : st.by_ = .finishEarlySweep) : ownOf root st = false := by
  unfold ownOf
  rw [h]
  exact Bool.and_false _

/-! ## Rankings -/

/-- A ranking is replaced by one that is called by the same start. -/
theorem Callers.setRanking (h : Callers s) {k : ℕ} {r q : Ranking}
    (hk : s.rankings[k]? = some r) (hstart : q.start = r.start) : Callers (s.setRanking k q) := by
  obtain ⟨h1, h2, h3, h4, h5⟩ := h
  refine ⟨fun p hp => ?_, h2, h3, h4, h5⟩
  rcases List.mem_or_eq_of_mem_set hp with hp | rfl
  · exact h1 p hp
  · rw [hstart]
    exact h1 r (List.mem_of_getElem? hk)

theorem own_setRanking {k : ℕ} {r q : Ranking} (hk : s.rankings[k]? = some r) (root : ℕ) :
    (s.setRanking k q).own root + (rankingOwesOwn root r).toNat =
      s.own root + (rankingOwesOwn root q).toNat := by
  have hset := countP_set_toNat (b := q) (rankingOwesOwn root) hk
  unfold own setRanking
  dsimp only
  omega

theorem rebuilds_setRanking {k : ℕ} {r q : Ranking} (hk : s.rankings[k]? = some r) (root : ℕ) :
    (s.setRanking k q).rebuilds root + (rankingOwesRebuild root r).toNat =
      s.rebuilds root + (rankingOwesRebuild root q).toNat := by
  have hset := countP_set_toNat (b := q) (rankingOwesRebuild root) hk
  unfold rebuilds setRanking
  dsimp only
  omega

theorem Rooted.quiet (h : Rooted s) {k : ℕ} {r r' : Ranking} (hk : s.rankings[k]? = some r)
    (hstart : r'.start = r.start) (hresumes : r'.resumes = r.resumes)
    (hended : r'.ended = r.ended) : Rooted (s.setRanking k r') := by
  refine h.le (fun root => ?_) (fun root => ?_) rfl (h.callers.setRanking hk hstart)
  · have hset := own_setRanking (q := r') hk root
    have hsame : rankingOwesOwn root r' = rankingOwesOwn root r := by
      unfold rankingOwesOwn
      rw [hstart, hresumes]
    rw [hsame] at hset
    omega
  · have hset := rebuilds_setRanking (q := r') hk root
    have hsame : rankingOwesRebuild root r' = rankingOwesRebuild root r := by
      unfold rankingOwesRebuild
      rw [hstart, hended]
    rw [hsame] at hset
    omega

/-- The thread posts no rebuild. -/
theorem Rooted.pushPost (h : Rooted s) (k : ℕ) (post : Ranking.Post) :
    Rooted (s.pushPost k post) := by
  have hpush : ∀ task : Task, (∀ root, taskOwesRebuild root task = false) →
      (∀ st changed, task ≠ .rebuild st changed) →
        Rooted { s with queue := s.queue ++ [task] } := by
    intro task howes hother
    refine h.le (fun root => Nat.le_refl _) (fun root => ?_) rfl ?_
    · unfold Controller.rebuilds
      dsimp only
      rw [countP_concat, howes root]
      exact Nat.le_refl _
    · obtain ⟨h1, h2, h3, h4, h5⟩ := h.callers
      refine ⟨h1, h2, h3, fun st changed hmem => ?_, h5⟩
      rcases List.mem_append.mp hmem with hmem | hmem
      · exact h4 st changed hmem
      · exact absurd (List.mem_singleton.mp hmem).symm (hother st changed)
  cases post with
  | nothing => exact h
  | startEarly => exact hpush _ (fun _ => rfl) fun _ _ heq => nomatch heq
  | ended startedEarly => exact hpush _ (fun _ => rfl) fun _ _ heq => nomatch heq

/-! ## Tasks -/

/-- The main thread takes a task. -/
theorem Callers.pop (h : Callers s) {task : Task} {later : List Task}
    (hqueue : s.queue = task :: later) : Callers { s with queue := later } := by
  obtain ⟨h1, h2, h3, h4, h5⟩ := h
  exact ⟨h1, h2, h3, fun st changed hmem => h4 st changed (hqueue ▸ List.mem_cons_of_mem _ hmem), h5⟩

theorem rebuilds_pop {task : Task} {later : List Task} (hqueue : s.queue = task :: later)
    (root : ℕ) : ({ s with queue := later } : Controller).rebuilds root +
      (taskOwesRebuild root task).toNat = s.rebuilds root := by
  unfold rebuilds
  rw [hqueue, List.countP_cons]
  dsimp only
  cases taskOwesRebuild root task with
  | false =>
    simp only [Bool.toNat_false, Bool.false_eq_true, if_false]
    omega
  | true =>
    simp only [Bool.toNat_true, if_true]
    omega

/-- The resume of a ranking that has not been resumed. -/
theorem Rooted.resume {before : Controller} (h : Rooted before) {r : Ranking}
    (hcallers : Callers s) (hstart : r.start.by_ = .start)
    (hown : ∀ root, s.own root + (ownOf root r.start).toNat ≤ before.own root)
    (hrebuilds : ∀ root, s.rebuilds root ≤ before.rebuilds root) (hroots : s.roots = before.roots)
    (env : TaskEnv) : Rooted (s.resume env r) := by
  unfold Controller.resume
  split
  · exact h.le (fun root => (Nat.le_add_right _ _).trans (hown root)) hrebuilds hroots hcallers
  · refine h.ofCases (startRanked_cases s env.start r.start) (fun hf => hf.elim)
      (fun hf => nomatch hf) hcallers hown ?_ hroots
    intro root
    rw [owesRebuild_resumed, rebuildOf_eq_false hstart]
    exact hrebuilds root

theorem Callers.finishEarlySweep (h : Callers s) (connecting : Bool)
    (hst : st.by_ = .finishEarlySweep) : Callers (s.finishEarlySweep connecting st) := by
  obtain ⟨h1, h2, h3, h4, h5⟩ := h
  unfold Controller.finishEarlySweep
  split
  · refine ⟨h1, fun other hother => ?_, h3, h4, h5⟩
    rcases List.mem_append.mp hother with hother | hother
    · exact h2 other hother
    · rw [List.mem_singleton.mp hother]
      exact hst
  · refine ⟨h1, h2, fun other hother => ?_, h4, h5⟩
    rcases List.mem_append.mp hother with hother | hother
    · exact h3 other hother
    · rw [List.mem_singleton.mp hother]
      exact hst

theorem own_finishEarlySweep (s : Controller) (connecting : Bool) (st : Start) (root : ℕ) :
    (s.finishEarlySweep connecting st).own root = s.own root := by
  unfold Controller.finishEarlySweep
  split <;> rfl

theorem rebuilds_finishEarlySweep (s : Controller) (connecting : Bool) (st : Start) (root : ℕ) :
    (s.finishEarlySweep connecting st).rebuilds root =
      s.rebuilds root + (decide (st.root = root)).toNat := by
  unfold Controller.finishEarlySweep
  split
  · unfold rebuilds
    rw [countP_concat]
    dsimp only
    omega
  · unfold rebuilds
    rw [countP_concat]
    dsimp only
    omega

/-- The early sweep of a place takes over what owed its rebuild. -/
theorem Rooted.finishEarlySweep {before : Controller} (h : Rooted before) (hcallers : Callers s)
    (hst : st.by_ = .finishEarlySweep) (hown : ∀ root, s.own root ≤ before.own root)
    (hrebuilds : ∀ root,
      s.rebuilds root + (decide (st.root = root)).toNat ≤ before.rebuilds root)
    (hroots : s.roots = before.roots) (connecting : Bool) :
    Rooted (s.finishEarlySweep connecting st) := by
  refine h.le (fun root => ?_) (fun root => ?_) ?_ (hcallers.finishEarlySweep connecting hst)
  · rw [own_finishEarlySweep]
    exact hown root
  · rw [rebuilds_finishEarlySweep]
    exact hrebuilds root
  · unfold Controller.finishEarlySweep
    split <;> exact hroots

theorem Rooted.runTask {task : Task} {later : List Task} (h : Rooted s) (hb : Booked s)
    (hqueue : s.queue = task :: later) (env : TaskEnv) :
    Rooted ({ s with queue := later }.runTask env task) := by
  have hpop := h.callers.pop hqueue
  cases task with
  | startEarly k =>
    obtain ⟨r, hk, hs, -, hbook⟩ := hb.get hqueue (.inl rfl)
    obtain ⟨hresumes, -⟩ := hbook.runStart hs.posts_le fun hpc => (hs.outcome hpc).1
    dsimp only [Controller.runTask]
    rw [hk]
    have hk' : ({ s with queue := later } : Controller).rankings[k]? = some r := hk
    have hcallers := hpop.setRanking (q := { r with resumes := r.resumes + 1 }) hk' rfl
    refine h.resume hcallers (h.callers.rankings r (List.mem_of_getElem? hk)) ?_ ?_ rfl env
    · intro root
      have hset := own_setRanking (q := { r with resumes := r.resumes + 1 }) hk' root
      have hold : rankingOwesOwn root r = ownOf root r.start := by
        unfold rankingOwesOwn
        rw [hresumes, decide_eq_true rfl, Bool.and_true]
      have hnew : rankingOwesOwn root { r with resumes := r.resumes + 1 } = false :=
        Bool.and_false _
      rw [hold, hnew] at hset
      exact hset.le
    · intro root
      have hset := rebuilds_setRanking (q := { r with resumes := r.resumes + 1 }) hk' root
      have hsame : rankingOwesRebuild root { r with resumes := r.resumes + 1 } =
          rankingOwesRebuild root r := rfl
      have hpopped := rebuilds_pop hqueue root
      rw [hsame] at hset
      omega
  | rankEnded k startedEarly =>
    obtain ⟨r, hk, hs, -, hbook⟩ := hb.get hqueue (.inr ⟨startedEarly, rfl⟩)
    have horder := hb.order
    rw [hqueue] at horder
    have hnone : Task.startEarly k ∉ later := fun hmem =>
      List.rel_of_pairwise_cons horder hmem k startedEarly rfl rfl
    obtain ⟨hpc, hlive, hresumes, -⟩ := hbook.runEnd hnone
    have hstart := h.callers.rankings r (List.mem_of_getElem? hk)
    have hpopped := rebuilds_pop hqueue
    let popped : Controller :=
      { s with queue := later, rankingInFlight_ := s.rankingInFlight_ - 1 }
    have hk' : popped.rankings[k]? = some r := hk
    have hcallers : Callers popped :=
      ⟨hpop.rankings, hpop.settling, hpop.finishing, hpop.queue, hpop.parked⟩
    have howed : ∀ root, rankingOwesRebuild root r = decide (r.start.root = root) := by
      intro root
      unfold rankingOwesRebuild
      rw [hlive, Bool.not_false, Bool.and_true]
    have hpaid : ∀ r' : Ranking, r'.ended = true → ∀ root, (popped.setRanking k r').rebuilds root +
        (decide (r.start.root = root)).toNat = s.rebuilds root := by
      intro r' hended root
      have hset := rebuilds_setRanking (q := r') hk' root
      have hnone : rankingOwesRebuild root r' = false := by
        unfold rankingOwesRebuild
        rw [hended, Bool.not_true, Bool.and_false]
      have hroot : popped.rebuilds root + 0 = s.rebuilds root := hpopped root
      rw [howed, hnone, Bool.toNat_false] at hset
      omega
    dsimp only [Controller.runTask]
    rw [hk]
    cases startedEarly with
    | true =>
      have hset := hcallers.setRanking (q := { r with ended := true }) hk' rfl
      refine h.finishEarlySweep hset rfl ?_ ?_ rfl
        env.connecting
      · intro root
        have hown := own_setRanking (q := { r with ended := true }) hk' root
        have hsame : rankingOwesOwn root { r with ended := true } = rankingOwesOwn root r := rfl
        have hroot : popped.own root = s.own root := rfl
        rw [hsame] at hown
        omega
      · exact fun root => (hpaid _ rfl root).le
    | false =>
      have hset := hcallers.setRanking (q := { r with ended := true, resumes := r.resumes + 1 })
        hk' rfl
      have hfirst := hresumes rfl (hs.outcome hpc).1
      refine h.resume hset hstart ?_ ?_ rfl env
      · intro root
        have hown := own_setRanking (q := { r with ended := true, resumes := r.resumes + 1 })
          hk' root
        have hold : rankingOwesOwn root r = ownOf root r.start := by
          unfold rankingOwesOwn
          rw [hfirst, decide_eq_true rfl, Bool.and_true]
        have hnew : rankingOwesOwn root { r with ended := true, resumes := r.resumes + 1 } =
            false := Bool.and_false _
        rw [hold, hnew] at hown
        exact hown.le
      · exact fun root => (Nat.le_add_right _ _).trans (hpaid _ rfl root).le
  | rebuild st changed =>
    have hst := h.callers.queue st changed (hqueue ▸ List.mem_cons_self)
    have hpopped := rebuilds_pop hqueue
    dsimp only [Controller.runTask]
    split
    · refine h.le (fun root => Nat.le_refl _) (fun root => ?_) rfl hpop
      have hroot := hpopped root
      omega
    · refine h.ofCases (startRanked_cases _ env.start st) (fun hf => hf.elim)
        (fun hf => nomatch hf) hpop ?_ ?_ rfl
      · intro root
        rw [ownOf_resumed, ownOf_eq_false hst]
        exact Nat.le_refl _
      · intro root
        have hroot := hpopped root
        have hle : (owesRebuild root { st with resumed := true }).toNat ≤
            (taskOwesRebuild root (.rebuild st changed)).toNat := by
          unfold owesRebuild taskOwesRebuild
          by_cases heq : st.root = root <;> simp [heq, hst]
        omega

/-! ## Steps -/

theorem Rooted.init : Rooted {} where
  own := fun _ => Nat.zero_le _
  rebuilds := fun _ => Nat.zero_le _
  fresh := fun _ _ => ⟨rfl, rfl⟩
  callers :=
    { rankings := fun _ h => (List.not_mem_nil h).elim
      settling := fun _ h => (List.not_mem_nil h).elim
      finishing := fun _ h => (List.not_mem_nil h).elim
      queue := fun _ _ h => (List.not_mem_nil h).elim
      parked := fun _ h => (List.not_mem_nil h).elim }

/-- A new root owes one launch and one rebuild at most. -/
theorem Rooted.newRoot (h : Rooted s)
    (hown : ∀ root, s'.own root ≤ s.own root + (decide (s.roots = root)).toNat)
    (hrebuilds : ∀ root, s'.rebuilds root ≤ s.rebuilds root + (decide (s.roots = root)).toNat)
    (hroots : s'.roots = s.roots + 1) (hcallers : Callers s') : Rooted s' := by
  have hbound : ∀ (f : Controller → ℕ → ℕ) (root : ℕ), f s root ≤ 1 →
      (s.roots ≤ root → f s root = 0) →
        f s' root ≤ f s root + (decide (s.roots = root)).toNat → f s' root ≤ 1 := by
    intro f root hone hzero hle
    by_cases heq : s.roots = root
    · rw [hzero heq.le, decide_eq_true heq] at hle
      exact hle
    · rw [decide_eq_false heq] at hle
      exact hle.trans hone
  refine ⟨fun root => ?_, fun root => ?_, fun root hroot => ?_, hcallers⟩
  · exact hbound Controller.own root (h.own root) (fun hle => (h.fresh root hle).1) (hown root)
  · exact hbound Controller.rebuilds root (h.rebuilds root) (fun hle => (h.fresh root hle).2)
      (hrebuilds root)
  · obtain ⟨ho, hr⟩ := h.fresh root (by omega)
    have hne : decide (s.roots = root) = false := decide_eq_false (by omega)
    have hown' := hown root
    have hrebuilds' := hrebuilds root
    rw [ho, hne] at hown'
    rw [hr, hne] at hrebuilds'
    exact ⟨Nat.le_zero.mp hown', Nat.le_zero.mp hrebuilds'⟩

theorem Callers.begin (h : Callers s) (hst : st.by_ = .start) (exhausted : Bool) (stale : List ℤ) :
    Callers { s with
      rankingInFlight_ := s.rankingInFlight_ + 1
      rankings := s.rankings ++ [{ start := st, exhausted, stale }] } := by
  obtain ⟨h1, h2, h3, h4, h5⟩ := h
  refine ⟨fun r hr => ?_, h2, h3, h4, h5⟩
  rcases List.mem_append.mp hr with hr | hr
  · exact h1 r hr
  · rw [List.mem_singleton.mp hr]
    exact hst

theorem Rooted.step (h : Rooted s) (hb : Booked s) (ev : Event) (hcalm : Calm s ev) :
    Rooted (s.step ev) := by
  obtain ⟨h1, h2, h3, h4, h5⟩ := h.callers
  cases ev with
  | start profile env =>
    have hcases := start_cases { s with roots := s.roots + 1 } env
      ⟨s.roots, profile, .start, false⟩
    refine h.newRoot (fun root => ?_) (fun root => ?_) ?_ ?_
    · refine (own_ofCases hcases root).trans (Nat.add_le_add_left ?_ _)
      unfold ownOf
      simp
    · refine (rebuilds_ofCases hcases (fun _ => rfl) root).trans (Nat.add_le_add_left ?_ _)
      unfold owesRebuild
      simp
    · exact hcases.roots
    · have hcallers : Callers { s with roots := s.roots + 1 } := ⟨h1, h2, h3, h4, h5⟩
      exact hcallers.ofCases hcases (fun _ => rfl) fun _ => rfl
  | exhausted profile lastBuilt =>
    refine h.newRoot (fun root => ?_) (fun root => ?_) rfl ?_
    · unfold Controller.own Controller.step
      dsimp only
      rw [countP_concat, rankingOwesOwn, ownOf]
      simp
      omega
    · unfold Controller.rebuilds Controller.step
      dsimp only
      rw [countP_concat, rankingOwesRebuild]
      simp
      omega
    · have hbegin := h.callers.begin
        (show (⟨s.roots, profile, .start, false⟩ : Start).by_ = .start from rfl) true lastBuilt
      exact ⟨hbegin.rankings, h2, h3, h4, h5⟩
  | rank k env =>
    dsimp only [Controller.step]
    split
    · exact h
    · rename_i r hk
      obtain ⟨hresumes, hended, hstart⟩ := takeStep_booked r env
      exact (h.quiet hk hstart hresumes hended).pushPost k _
  | result k member works =>
    dsimp only [Controller.step]
    split
    · exact h
    · rename_i r hk
      obtain ⟨-, -, hresumes, hended, hstart⟩ := takeResult_booked r member works
      exact h.quiet hk hstart hresumes hended
  | testsEnd k =>
    dsimp only [Controller.step]
    split
    · exact h
    · rename_i r hk
      obtain ⟨-, -, hresumes, hended, hstart⟩ := takeEnd_booked r
      exact h.quiet hk hstart hresumes hended
  | task env =>
    dsimp only [Controller.step]
    split
    · exact h
    · rename_i task later hqueue
      exact h.runTask hb hqueue env
  | settles j connecting =>
    dsimp only [Controller.step]
    split
    · exact h
    · rename_i st hj
      refine h.finishEarlySweep (s := { s with settling := s.settling.eraseIdx j })
        ⟨h1, fun other hother => h2 other (List.mem_of_mem_eraseIdx hother), h3, h4, h5⟩
        (h2 st (List.mem_of_getElem? hj)) (fun _ => Nat.le_refl _) (fun root => ?_) rfl connecting
      have herase := countP_eraseIdx (fun other => decide (other.root = root)) hj
      unfold Controller.rebuilds
      dsimp only
      omega
  | ranked j changed =>
    dsimp only [Controller.step]
    split
    · exact h
    · rename_i st hj
      refine h.le (fun _ => Nat.le_refl _) (fun root => ?_) rfl
        ⟨h1, h2, fun other hother => h3 other (List.mem_of_mem_eraseIdx hother), ?_, h5⟩
      · have herase := countP_eraseIdx (fun other => decide (other.root = root)) hj
        unfold Controller.rebuilds
        dsimp only
        rw [countP_concat, taskOwesRebuild]
        omega
      · intro other c hmem
        rcases List.mem_append.mp hmem with hmem | hmem
        · exact h4 other c hmem
        · cases List.mem_singleton.mp hmem
          exact h3 st (List.mem_of_getElem? hj)
  | unpark i env =>
    dsimp only [Controller.step]
    split
    · exact h
    · rename_i st hi
      have hmem := List.mem_of_getElem? hi
      refine h.ofCases (s := { s with parked := s.parked.eraseIdx i }) (start_cases _ env st) ?_
        (h5 st hmem) ⟨h1, h2, h3, h4, fun other hother =>
          h5 other (List.mem_of_mem_eraseIdx hother)⟩ (fun root => ?_) (fun root => ?_) rfl
      · rintro ⟨hbefore, hasks⟩
        by_contra hresumed
        have hnot := hcalm st hi (Bool.not_eq_false _ ▸ hresumed) hbefore
        have hsame : s.asksRanking env st = true := hasks
        rw [hnot] at hsame
        cases hsame
      · have herase := countP_eraseIdx (ownOf root) hi
        unfold Controller.own
        dsimp only
        omega
      · have herase := countP_eraseIdx (owesRebuild root) hi
        unfold Controller.rebuilds
        dsimp only
        omega
  | drop i =>
    refine h.le (fun root => ?_) (fun root => ?_) rfl
      ⟨h1, h2, h3, h4, fun other hother => h5 other (List.mem_of_mem_eraseIdx hother)⟩
    · have hle := (s.parked.eraseIdx_sublist i).countP_le (p := ownOf root)
      unfold Controller.own Controller.step
      dsimp only
      omega
    · have hle := (s.parked.eraseIdx_sublist i).countP_le (p := owesRebuild root)
      unfold Controller.rebuilds Controller.step
      dsimp only
      omega

/-! ## The guarantee -/

/-- What is to hold in every state. -/
structure RankingsKept (s : Controller) : Prop where
  rankings : ∀ r ∈ s.rankings, r.Keeps
  /-- Each ranking that has not ended counts once, and the others not at all. -/
  inFlight : s.rankingInFlight_ = s.rankings.countP fun r => !r.ended
  /-- A start is launched once by itself, and once more by `finishEarlySweep` at most. -/
  oneStart : ∀ root, s.launched.countP (ownOf root) ≤ 1
  oneRebuild : ∀ root, s.launched.countP (rebuildOf root) ≤ 1

theorem Booked.keeps (h : Booked s) : ∀ r ∈ s.rankings, r.Keeps := by
  intro r hr
  obtain ⟨k, hk⟩ := List.mem_iff_getElem?.mp hr
  exact keeps_of_booked (h.signals r hr) (h.counts r hr) (h.books k r hk)

/-- Two members, one of them known to work, and a quorum of one. -/
def smallPool : Pool where
  candidates := [1, 2]
  nodup := by decide
  effectiveLatencyOf := fun id => if id = 1 then 50 else 0
  expected := 1
  activeSize := 1
  buildLimit := 1

def rankEnv : RankEnv := ⟨smallPool, true⟩

def needsRanking : StartEnv := ⟨.goesOn, true, true, .goesOn⟩

def idle : TaskEnv := ⟨needsRanking, false, true⟩

/-- The steps of a ranking that starts early, to its end and the rebuild behind it. -/
def earlySweep (k : ℕ) (rebuild : TaskEnv) : List Event :=
  List.replicate 6 (.rank k rankEnv) ++ [.task idle, .result k 2 true, .testsEnd k] ++
    List.replicate 3 (.rank k rankEnv) ++ [.task idle, .ranked 0 true, .task rebuild]

/-- A start, its early launch and one rebuild. -/
def oneSweep : List Event := .start 7 needsRanking :: earlySweep 0 idle

/-- The kill switch arms. -/
def arming : TaskEnv := { idle with start := { needsRanking with before := .parked } }

/-- The kill switch arms as the rebuild begins, and its request waits. -/
def parkedRebuild : List Event :=
  .start 7 needsRanking :: earlySweep 0 arming ++ .unpark 0 needsRanking :: earlySweep 1 idle

end Throned.Engine.AutoSelector.Controller
