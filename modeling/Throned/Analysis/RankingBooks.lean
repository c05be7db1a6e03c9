import Throned.Analysis.RankingSteps
import Throned.Library.Actors

/-!
# What the main thread owes a ranking

The thread posts the early start and then its end, and the main thread comes to them in that
order.  What has been resumed and what stands in the queue add up to what the thread has posted,
so each ranking is resumed once and its end is taken off the counter once.
-/

set_option autoImplicit false

namespace Throned.Engine.AutoSelector

open Throned.Library

/-! ## What a step of the thread posts -/

def Ranking.hasReturned (r : Ranking) : Bool :=
  match r.pc with
  | .returned _ => true
  | _ => false

theorem hasReturned_iff {r : Ranking} : r.hasReturned = true ↔ ∃ b, r.pc = .returned b := by
  unfold Ranking.hasReturned
  cases r.pc <;> simp

/-- What a step leaves to the books: nothing, an early start or the end of the thread. -/
inductive Posting (r r' : Ranking) : Ranking.Post → Prop where
  | nothing (hposts : r'.posts = r.posts)
      (hpc : ∀ b, r'.pc = .returned b ↔ r.pc = .returned b) : Posting r r' .nothing
  | startEarly (hposts : r'.posts = r.posts + 1) (hpc : ∀ b, r.pc ≠ .returned b)
      (hpc' : ∀ b, r'.pc ≠ .returned b) : Posting r r' .startEarly
  | ended {b : Bool} (hposts : r'.posts = r.posts) (hpc : ∀ b, r.pc ≠ .returned b)
      (hpc' : r'.pc = .returned b) : Posting r r' (.ended b)

theorem advance_posting (r : Ranking) (env : RankEnv) :
    Posting r (r.advance env).1 (r.advance env).2 := by
  unfold Ranking.advance
  cases hpc : r.pc with
  | entered =>
    dsimp only
    split
    · exact .ended rfl (by simp [hpc]) rfl
    · exact .nothing rfl (by simp [hpc])
  | testing =>
    dsimp only
    split <;> exact .nothing rfl (by simp [hpc])
  | checking => exact .nothing rfl (by simp [hpc])
  | waiting =>
    dsimp only
    split
    · exact .nothing rfl (by simp [hpc])
    · exact .nothing rfl fun _ => Iff.rfl
  | woken =>
    dsimp only
    split
    · exact .nothing rfl (by simp [hpc])
    · split <;> exact .nothing rfl (by simp [hpc])
  | startingEarly => exact .startEarly rfl (by simp [hpc]) (by simp)
  | leaving =>
    dsimp only
    split <;> exact .ended rfl (by simp [hpc]) rfl
  | returned b => exact .nothing rfl fun _ => Iff.rfl

theorem Posting.count {r r' : Ranking} {post : Ranking.Post} (h : Posting r r' post) (steps : ℕ) :
    Posting r { r' with steps } post := by
  cases h with
  | nothing hposts hpc => exact .nothing hposts hpc
  | startEarly hposts hpc hpc' => exact .startEarly hposts hpc hpc'
  | ended hposts hpc hpc' => exact .ended hposts hpc hpc'

theorem takeStep_posting (r : Ranking) (env : RankEnv) :
    Posting r (r.takeStep env).1 (r.takeStep env).2 := by
  unfold Ranking.takeStep
  split
  · exact (advance_posting r env).count _
  · exact .nothing rfl fun _ => Iff.rfl

theorem advance_booked (r : Ranking) (env : RankEnv) :
    (r.advance env).1.resumes = r.resumes ∧ (r.advance env).1.ended = r.ended ∧
      (r.advance env).1.start = r.start := by
  unfold Ranking.advance
  split <;> (try split) <;> (try split) <;> exact ⟨rfl, rfl, rfl⟩

theorem takeStep_booked (r : Ranking) (env : RankEnv) :
    (r.takeStep env).1.resumes = r.resumes ∧ (r.takeStep env).1.ended = r.ended ∧
      (r.takeStep env).1.start = r.start := by
  unfold Ranking.takeStep
  split
  · exact advance_booked r env
  · exact ⟨rfl, rfl, rfl⟩

/-! ## The books of one ranking -/

/-- A task is the end of the ranking at a place. -/
def Task.isEnd (k : ℕ) : Task → Bool
  | .rankEnded j _ => j = k
  | _ => false

structure BookedAt (queue : List Task) (k : ℕ) (r : Ranking) : Prop where
  ends : queue.countP (Task.isEnd k) + r.ended.toNat = r.hasReturned.toNat
  endsAs : ∀ b, Task.rankEnded k b ∈ queue → r.pc = .returned b
  resumed : r.resumes + queue.count (.startEarly k) + queue.count (.rankEnded k false) =
    r.posts + (decide (r.pc = .returned false)).toNat
  settled : r.ended = true → Task.startEarly k ∉ queue

variable {queue : List Task} {k : ℕ} {r r' : Ranking}

/-- Tasks of other rankings do not count. -/
theorem BookedAt.push (h : BookedAt queue k r) {task : Task} (hearly : task ≠ .startEarly k)
    (hend : ∀ b, task ≠ .rankEnded k b) : BookedAt (queue ++ [task]) k r := by
  have hnot : Task.isEnd k task = false := by
    cases task with
    | rankEnded j b =>
      refine decide_eq_false fun hj => hend b ?_
      rw [hj]
    | startEarly j => rfl
    | rebuild st changed => rfl
  refine ⟨?_, fun b hb => ?_, ?_, ?_⟩
  · rw [List.countP_append, List.countP_singleton, hnot]
    exact h.ends
  · rcases List.mem_append.mp hb with hb | hb
    · exact h.endsAs b hb
    · exact absurd (List.mem_singleton.mp hb).symm (hend b)
  · rw [List.count_append, List.count_append, List.count_singleton, List.count_singleton,
      if_neg (by simpa using hearly), if_neg (by simpa using hend false)]
    exact h.resumed
  · intro hended hmem
    rcases List.mem_append.mp hmem with hmem | hmem
    · exact h.settled hended hmem
    · exact hearly (List.mem_singleton.mp hmem).symm

theorem BookedAt.pop {task : Task} (h : BookedAt (task :: queue) k r)
    (hearly : task ≠ .startEarly k) (hend : ∀ b, task ≠ .rankEnded k b) : BookedAt queue k r := by
  have hnot : ¬ Task.isEnd k task = true := by
    cases task with
    | rankEnded j b =>
      intro hj
      exact hend b (by rw [of_decide_eq_true hj])
    | startEarly j => exact Bool.false_ne_true
    | rebuild st changed => exact Bool.false_ne_true
  have hends := h.ends
  have hresumed := h.resumed
  rw [List.countP_cons_of_neg hnot] at hends
  rw [List.count_cons_of_ne hearly, List.count_cons_of_ne (hend false)] at hresumed
  exact ⟨hends, fun b hb => h.endsAs b (List.mem_cons_of_mem _ hb), hresumed,
    fun hended hmem => h.settled hended (List.mem_cons_of_mem _ hmem)⟩

/-- Steps that post nothing. -/
theorem BookedAt.congr (h : BookedAt queue k r) (hposts : r'.posts = r.posts)
    (hpc : ∀ b, r'.pc = .returned b ↔ r.pc = .returned b) (hresumes : r'.resumes = r.resumes)
    (hended : r'.ended = r.ended) : BookedAt queue k r' := by
  have hreturned : r'.hasReturned = r.hasReturned := by
    rw [Bool.eq_iff_iff, hasReturned_iff, hasReturned_iff]
    exact exists_congr hpc
  refine ⟨?_, fun b hb => (hpc b).mpr (h.endsAs b hb), ?_, fun he => h.settled (hended ▸ he)⟩
  · rw [hended, hreturned]
    exact h.ends
  · rw [hresumes, hposts, decide_eq_decide.mpr (hpc false)]
    exact h.resumed

/-- A thread that has not returned has not ended. -/
theorem BookedAt.not_ended (h : BookedAt queue k r) (hpc : ∀ b, r.pc ≠ .returned b) :
    r.hasReturned = false ∧ r.ended = false := by
  have hnot : r.hasReturned = false := by
    refine Bool.eq_false_iff.mpr fun hret => ?_
    obtain ⟨b, hb⟩ := hasReturned_iff.mp hret
    exact hpc b hb
  have hends := h.ends
  rw [hnot, Bool.toNat_false] at hends
  refine ⟨hnot, ?_⟩
  cases he : r.ended with
  | false => rfl
  | true =>
    rw [he, Bool.toNat_true] at hends
    omega

theorem BookedAt.pushStart (h : BookedAt queue k r) (hposts : r'.posts = r.posts + 1)
    (hpc : ∀ b, r.pc ≠ .returned b) (hpc' : ∀ b, r'.pc ≠ .returned b)
    (hresumes : r'.resumes = r.resumes) (hended : r'.ended = r.ended) :
    BookedAt (queue ++ [.startEarly k]) k r' := by
  obtain ⟨hnot, hlive⟩ := h.not_ended hpc
  have hnot' : r'.hasReturned = false := by
    refine Bool.eq_false_iff.mpr fun hret => ?_
    obtain ⟨b, hb⟩ := hasReturned_iff.mp hret
    exact hpc' b hb
  have hends := h.ends
  have hresumed := h.resumed
  rw [hnot] at hends
  rw [decide_eq_false (hpc false)] at hresumed
  refine ⟨?_, fun b hb => ?_, ?_, fun he => ?_⟩
  · rw [List.countP_append, List.countP_singleton, hended, hnot']
    exact hends
  · rcases List.mem_append.mp hb with hb | hb
    · exact absurd (h.endsAs b hb) (hpc b)
    · cases List.mem_singleton.mp hb
  · rw [List.count_append, List.count_append, List.count_singleton, List.count_singleton,
      if_pos (by simp), if_neg (by simp), hresumes, hposts, decide_eq_false (hpc' false)]
    omega
  · rw [hended, hlive] at he
    cases he

theorem BookedAt.pushEnd (h : BookedAt queue k r) {b : Bool} (hposts : r'.posts = r.posts)
    (hpc : ∀ b, r.pc ≠ .returned b) (hpc' : r'.pc = .returned b)
    (hresumes : r'.resumes = r.resumes) (hended : r'.ended = r.ended) :
    BookedAt (queue ++ [.rankEnded k b]) k r' := by
  obtain ⟨hnot, hlive⟩ := h.not_ended hpc
  have hret : r'.hasReturned = true := hasReturned_iff.mpr ⟨b, hpc'⟩
  have hends := h.ends
  have hresumed := h.resumed
  rw [hnot, Bool.toNat_false] at hends
  rw [decide_eq_false (hpc false), Bool.toNat_false] at hresumed
  refine ⟨?_, fun c hc => ?_, ?_, fun he => ?_⟩
  · rw [List.countP_append, List.countP_singleton, hended, hret, Task.isEnd, decide_eq_true rfl,
      if_pos rfl, Bool.toNat_true]
    omega
  · rcases List.mem_append.mp hc with hc | hc
    · exact absurd (h.endsAs c hc) (hpc c)
    · cases List.mem_singleton.mp hc
      exact hpc'
  · rw [List.count_append, List.count_append, List.count_singleton, List.count_singleton,
      if_neg (by simp), hresumes, hposts, hpc']
    cases b with
    | false =>
      simp
      omega
    | true =>
      simp
      omega
  · rw [hended, hlive] at he
    cases he

/-- The main thread runs the early start: it is the first resume. -/
theorem BookedAt.runStart (h : BookedAt (.startEarly k :: queue) k r) (hone : r.posts ≤ 1)
    (hpc : r.pc = .returned false → r.posts = 0) :
    r.resumes = 0 ∧ BookedAt queue k { r with resumes := r.resumes + 1 } := by
  have hends := h.ends
  have hresumed := h.resumed
  rw [List.countP_cons_of_neg (by simp [Task.isEnd])] at hends
  rw [List.count_cons_self, List.count_cons_of_ne (by simp)] at hresumed
  have hbound : r.posts + (decide (r.pc = .returned false)).toNat ≤ 1 := by
    by_cases hret : r.pc = .returned false
    · rw [hpc hret, decide_eq_true hret]
      exact Nat.le_refl 1
    · rw [decide_eq_false hret]
      exact hone
  refine ⟨by omega, hends, fun b hb => h.endsAs b (List.mem_cons_of_mem _ hb), ?_,
    fun he hmem => h.settled he (List.mem_cons_of_mem _ hmem)⟩
  dsimp only
  omega

/-- The main thread comes to the end of the ranking. -/
theorem BookedAt.runEnd {b : Bool} (h : BookedAt (.rankEnded k b :: queue) k r)
    (horder : Task.startEarly k ∉ queue) :
    r.pc = .returned b ∧ r.ended = false ∧ (b = false → r.posts = 0 → r.resumes = 0) ∧
      BookedAt queue k { r with ended := true, resumes := r.resumes + (!b).toNat } := by
  have hpc := h.endsAs b List.mem_cons_self
  have hret : r.hasReturned = true := hasReturned_iff.mpr ⟨b, hpc⟩
  have hends := h.ends
  have hresumed := h.resumed
  rw [List.countP_cons_of_pos (by simp [Task.isEnd]), hret, Bool.toNat_true] at hends
  rw [List.count_cons_of_ne (by simp)] at hresumed
  have hended : r.ended = false := by
    cases he : r.ended with
    | false => rfl
    | true =>
      rw [he, Bool.toNat_true] at hends
      omega
  refine ⟨hpc, hended, ?_, ⟨?_, fun c hc => h.endsAs c (List.mem_cons_of_mem _ hc), ?_,
    fun _ => horder⟩⟩
  · rintro rfl hposts
    rw [List.count_cons_self, hposts, decide_eq_true hpc, Bool.toNat_true] at hresumed
    omega
  · have hsame : ({ r with ended := true, resumes := r.resumes + (!b).toNat } :
        Ranking).hasReturned = true := hret
    rw [hsame, Bool.toNat_true]
    omega
  · cases b with
    | false =>
      rw [List.count_cons_self] at hresumed
      simp only [Bool.not_false, Bool.toNat_true]
      omega
    | true =>
      rw [List.count_cons_of_ne (by simp)] at hresumed
      simp only [Bool.not_true, Bool.toNat_false]
      exact hresumed

/-! ## What holds of every ranking -/

/-- What is to hold of a ranking at any time. -/
structure Ranking.Keeps (r : Ranking) : Prop where
  /-- The thread takes nine steps at most, and it waits for nothing but the end of its tests. -/
  bounded : r.steps ≤ 9
  waits : (∀ b, r.pc ≠ .returned b) → r.canAdvance = false →
    r.finished = false ∧ r.accepted = true
  returns : r.finished = true → ∀ env, ∃ n, ∃ b,
    ((fun r => (r.takeStep env).1)^[n] r).pc = .returned b
  postedOnce : r.posts ≤ 1
  /-- True after an early start, false after the final rerank alone. -/
  outcome : ∀ b, r.pc = .returned b → r.posts = b.toNat ∧ (b = false → r.reranked = true)
  quorum : 0 < r.posts → QuorumReached r
  resumedOnce : r.resumes ≤ 1 ∧ (r.ended = true → r.resumes = 1)

theorem Signals.outcome (h : Signals r) {b : Bool} (hpc : r.pc = .returned b) :
    r.posts = b.toNat ∧ (b = false → r.reranked = true) := by
  have hpermits := h.permits
  have hposts := h.posts
  unfold Permits at hpermits
  rw [hpc] at hpermits hposts
  rw [hpermits.1] at hposts
  refine ⟨?_, hpermits.2⟩
  cases b <;> simpa using hposts

theorem Signals.posts_le (h : Signals r) : r.posts ≤ 1 := by
  rw [h.posts]
  split <;> decide

theorem keeps_of_booked (hs : Signals r) (hc : Counts r) (hb : BookedAt queue k r) : r.Keeps where
  bounded := hs.steps.trans (stepBound_le _ _)
  waits := by
    intro hpc hcan
    refine ⟨?_, ?_⟩
    · by_contra hend
      have hgo := hs.canAdvance (Bool.not_eq_false _ ▸ hend) hpc
      rw [hcan] at hgo
      cases hgo
    · unfold Ranking.canAdvance at hcan
      split at hcan
      · rename_i b hb
        exact absurd hb (hpc b)
      · rename_i hwait
        have hneeded := hc.asks (by simp [hwait]) hpc
        unfold Ranking.accepted
        rw [hwait]
        simpa using hneeded
      · cases hcan
  returns := fun hend env =>
    have ⟨n, _, hn⟩ := hs.returns hend env
    ⟨n, hn⟩
  postedOnce := hs.posts_le
  outcome := fun _ hpc => hs.outcome hpc
  quorum := by
    intro hpos
    have hposts := hs.posts
    have hearly : r.startedEarly = true := by
      by_contra hnot
      rw [if_neg fun hboth => hnot hboth.1] at hposts
      omega
    exact hc.met (hs.met hearly)
  resumedOnce := by
    have hresumed := hb.resumed
    have hle := hs.posts_le
    have hsum : r.posts + (decide (r.pc = .returned false)).toNat ≤ 1 := by
      by_cases hret : r.pc = .returned false
      · rw [(hs.outcome hret).1, decide_eq_true hret]
        exact Nat.le_refl 1
      · rw [decide_eq_false hret]
        exact hle
    refine ⟨by omega, fun hended => ?_⟩
    have hends := hb.ends
    have hnone := List.count_eq_zero.mpr (hb.settled hended)
    have hret : r.hasReturned = true := by
      by_contra hnot
      rw [hended, Bool.eq_false_iff.mpr hnot, Bool.toNat_true, Bool.toNat_false] at hends
      omega
    obtain ⟨b, hpc⟩ := hasReturned_iff.mp hret
    have hout := (hs.outcome hpc).1
    rw [hended, hret, Bool.toNat_true] at hends
    have hgone : queue.count (.rankEnded k false) = 0 := by
      refine List.count_eq_zero.mpr fun hmem => ?_
      have hpos : 0 < queue.countP (Task.isEnd k) :=
        List.countP_pos_iff.mpr ⟨_, hmem, decide_eq_true rfl⟩
      omega
    rw [hnone, hgone, hout, hpc] at hresumed
    cases b <;> simpa using hresumed

end Throned.Engine.AutoSelector
