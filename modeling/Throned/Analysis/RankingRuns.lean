import Throned.Analysis.RankingBooks

/-!
# Rankings over runs

The books of every ranking over any order of steps, and the rebuilds that go back to one start.
A start owes one launch of its own and one rebuild: the first from the time it waits or is ranked
until it has been resumed, the second until the end of its ranking.  Both are paid once unless a
resumed start that had to wait asks for another ranking.
-/

set_option autoImplicit false

namespace Throned.Engine.AutoSelector.Controller

open Throned.Library

variable {s : Controller}

/-! ## Books -/

def Task.names (task : Task) (k : ℕ) : Prop :=
  task = .startEarly k ∨ ∃ b, task = .rankEnded k b

/-- The early start of a ranking is not behind its end. -/
def InOrder (t u : Task) : Prop := ∀ k b, t = .rankEnded k b → u ≠ .startEarly k

structure Booked (s : Controller) : Prop where
  signals : ∀ r ∈ s.rankings, Signals r
  counts : ∀ r ∈ s.rankings, Counts r
  named : ∀ task ∈ s.queue, ∀ k, Task.names task k → k < s.rankings.length
  order : s.queue.Pairwise InOrder
  books : ∀ k r, s.rankings[k]? = some r → BookedAt s.queue k r
  inFlight : s.rankingInFlight_ = s.rankings.countP fun r => !r.ended

theorem Booked.init : Booked {} where
  signals := fun _ h => (List.not_mem_nil h).elim
  counts := fun _ h => (List.not_mem_nil h).elim
  named := fun _ h => (List.not_mem_nil h).elim
  order := .nil
  books := fun k _ h => nomatch (List.getElem?_nil (i := k)).symm.trans h
  inFlight := rfl

theorem Booked.congr (h : Booked s) {s' : Controller} (hrankings : s'.rankings = s.rankings)
    (hqueue : s'.queue = s.queue) (hflight : s'.rankingInFlight_ = s.rankingInFlight_) :
    Booked s' := by
  obtain ⟨h1, h2, h3, h4, h5, h6⟩ := h
  constructor
  · rwa [hrankings]
  · rwa [hrankings]
  · rwa [hrankings, hqueue]
  · rwa [hqueue]
  · rwa [hrankings, hqueue]
  · rw [hrankings, hflight]
    exact h6

/-- A ranking begins. -/
theorem Booked.begin (h : Booked s) (st : Start) (exhausted : Bool) (stale : List ℤ) :
    Booked { s with
      rankingInFlight_ := s.rankingInFlight_ + 1
      rankings := s.rankings ++ [{ start := st, exhausted, stale }] } where
  signals := by
    intro r hr
    rcases List.mem_append.mp hr with hr | hr
    · exact h.signals r hr
    · rw [List.mem_singleton.mp hr]
      exact signals_new st exhausted stale
  counts := by
    intro r hr
    rcases List.mem_append.mp hr with hr | hr
    · exact h.counts r hr
    · rw [List.mem_singleton.mp hr]
      exact counts_new st exhausted stale
  named := by
    intro task htask k hk
    rw [List.length_append]
    exact Nat.lt_add_right _ (h.named task htask k hk)
  order := h.order
  books := by
    intro k r hr
    rw [List.getElem?_append] at hr
    split at hr
    · exact h.books k r hr
    · rename_i hnot
      -- no task names a ranking that has just begun
      have hnone : ∀ task ∈ s.queue, ¬ Task.names task k := fun task htask hk =>
        hnot (h.named task htask k hk)
      have hr' := List.mem_singleton.mp (List.mem_of_getElem? hr)
      have hstart : Task.startEarly k ∉ s.queue := fun hmem => hnone _ hmem (.inl rfl)
      have hend : ∀ b, Task.rankEnded k b ∉ s.queue := fun b hmem => hnone _ hmem (.inr ⟨b, rfl⟩)
      rw [hr']
      refine ⟨?_, fun b hb => absurd hb (hend b), ?_, fun he => nomatch he⟩
      · rw [List.countP_eq_zero.mpr]
        · rfl
        · intro task htask hisEnd
          cases task with
          | rankEnded j b =>
            refine hend b ?_
            rw [← show j = k from of_decide_eq_true hisEnd]
            exact htask
          | startEarly j => cases hisEnd
          | rebuild st changed => cases hisEnd
      · rw [List.count_eq_zero.mpr hstart, List.count_eq_zero.mpr (hend false)]
        rfl
  inFlight := by
    rw [List.countP_append, h.inFlight]
    rfl

/-- What a start does: it is answered, waits, launches a worker, or goes off to rank where it
asks to. -/
inductive StartCases (s : Controller) (st : Start) (asks : Prop) : Controller → Prop where
  | answered (rankedFor : ℤ) : StartCases s st asks { s with rankedFor_ := rankedFor }
  | parked (rankedFor : ℤ) :
    StartCases s st asks { s with rankedFor_ := rankedFor, parked := s.parked ++ [st] }
  | launched (rankedFor : ℤ) :
    StartCases s st asks { s with rankedFor_ := rankedFor, launched := s.launched ++ [st] }
  | ranks (rankedFor : ℤ) (hasks : asks) : StartCases s st asks { s with
      rankedFor_ := rankedFor
      rankingInFlight_ := s.rankingInFlight_ + 1
      rankings := s.rankings ++ [{ start := st, exhausted := false, stale := [] }] }

theorem start_cases (s : Controller) (env : StartEnv) (st : Start) :
    StartCases s st (env.before = .goesOn ∧ s.asksRanking env st = true) (s.start env st) := by
  unfold Controller.start
  split
  · exact .answered _
  · exact .parked _
  · rename_i hbefore
    unfold rankBeforeStart
    dsimp only
    cases hasks : s.asksRanking env st with
    | true => exact .ranks _ ⟨hbefore, rfl⟩
    | false =>
      rw [if_neg Bool.false_ne_true]
      dsimp only
      split
      · exact .answered _
      · exact .parked _
      · exact .launched _

/-- A start that a ranking calls does not ask for another one. -/
theorem startRanked_cases (s : Controller) (env : StartEnv) (st : Start) :
    StartCases s { st with resumed := true } False (s.startRanked env st) := by
  have hcases := start_cases { s with rankedFor_ := st.profile } env { st with resumed := true }
  have hasks : asksRanking { s with rankedFor_ := st.profile } env { st with resumed := true } =
      false := by
    unfold asksRanking
    simp
  unfold Controller.startRanked
  dsimp only
  generalize Controller.start { s with rankedFor_ := st.profile } env { st with resumed := true } =
    s' at hcases ⊢
  cases hcases with
  | answered rankedFor => exact .answered _
  | parked rankedFor => exact .parked _
  | launched rankedFor => exact .launched _
  | ranks rankedFor hask =>
    rw [hasks] at hask
    exact absurd hask.2 Bool.false_ne_true

theorem Booked.ofCases (h : Booked s) {st : Start} {asks : Prop} {s' : Controller}
    (hcases : StartCases s st asks s') : Booked s' := by
  cases hcases with
  | answered rankedFor => exact h.congr rfl rfl rfl
  | parked rankedFor => exact h.congr rfl rfl rfl
  | launched rankedFor => exact h.congr rfl rfl rfl
  | ranks rankedFor hasks => exact (h.begin st false []).congr rfl rfl rfl

theorem Booked.resume (h : Booked s) (env : TaskEnv) (r : Ranking) : Booked (s.resume env r) := by
  unfold Controller.resume
  split
  · exact h
  · exact h.ofCases (startRanked_cases s env.start r.start)

/-- A ranking takes a step that posts nothing. -/
theorem Booked.quiet (h : Booked s) {k : ℕ} {r r' : Ranking} (hk : s.rankings[k]? = some r)
    (hs : Signals r') (hc : Counts r') (hposts : r'.posts = r.posts)
    (hpc : ∀ b, r'.pc = .returned b ↔ r.pc = .returned b) (hresumes : r'.resumes = r.resumes)
    (hended : r'.ended = r.ended) : Booked (s.setRanking k r') where
  signals := by
    intro q hq
    rcases List.mem_or_eq_of_mem_set hq with hq | rfl
    · exact h.signals q hq
    · exact hs
  counts := by
    intro q hq
    rcases List.mem_or_eq_of_mem_set hq with hq | rfl
    · exact h.counts q hq
    · exact hc
  named := by
    intro task htask j hj
    unfold setRanking
    rw [List.length_set]
    exact h.named task htask j hj
  order := h.order
  books := by
    intro j q hq
    rcases getElem?_set_cases hq with ⟨rfl, rfl⟩ | ⟨-, hq⟩
    · exact (h.books _ r hk).congr hposts hpc hresumes hended
    · exact h.books j q hq
  inFlight := by
    have hcount := countP_step (b := r') (fun q => !q.ended) hk
    rw [hended] at hcount
    have hflight := h.inFlight
    unfold setRanking
    dsimp only
    omega

/-- A task that names a ranking is put at the end of the queue. -/
theorem Booked.pushTask (h : Booked s) {k : ℕ} {r r' : Ranking} (hk : s.rankings[k]? = some r)
    (hs : Signals r') (hc : Counts r') {task : Task} (hname : Task.names task k)
    (hother : ∀ j, Task.names task j → j = k)
    (horder : ∀ t ∈ s.queue, InOrder t task) (hended : r'.ended = r.ended)
    (hbook : BookedAt (s.queue ++ [task]) k r') :
    Booked { s.setRanking k r' with queue := s.queue ++ [task] } where
  signals := by
    intro q hq
    rcases List.mem_or_eq_of_mem_set hq with hq | rfl
    · exact h.signals q hq
    · exact hs
  counts := by
    intro q hq
    rcases List.mem_or_eq_of_mem_set hq with hq | rfl
    · exact h.counts q hq
    · exact hc
  named := by
    intro t ht j hj
    unfold setRanking
    rw [List.length_set]
    rcases List.mem_append.mp ht with ht | ht
    · exact h.named t ht j hj
    · rw [List.mem_singleton.mp ht] at hj
      rw [hother j hj]
      exact (List.getElem?_eq_some_iff.mp hk).1
  order := by
    refine List.pairwise_append.mpr ⟨h.order, List.pairwise_singleton _ _, ?_⟩
    intro t ht u hu
    rw [List.mem_singleton.mp hu]
    exact horder t ht
  books := by
    intro j q hq
    rcases getElem?_set_cases hq with ⟨rfl, rfl⟩ | ⟨hne, hq⟩
    · exact hbook
    · refine (h.books j q hq).push ?_ ?_
      · exact fun heq => hne (hother j (.inl heq))
      · exact fun b heq => hne (hother j (.inr ⟨b, heq⟩))
  inFlight := by
    have hcount := countP_step (b := r') (fun q => !q.ended) hk
    rw [hended] at hcount
    have hflight := h.inFlight
    unfold setRanking
    dsimp only
    omega

theorem Booked.rank (h : Booked s) {k : ℕ} {r : Ranking} (hk : s.rankings[k]? = some r)
    (env : RankEnv) :
    Booked ((s.setRanking k (r.takeStep env).1).pushPost k (r.takeStep env).2) := by
  have hmem := List.mem_of_getElem? hk
  have hs := (h.signals r hmem).takeStep env
  have hc := (h.counts r hmem).takeStep env
  obtain ⟨hresumes, hended, -⟩ := takeStep_booked r env
  have hposting := takeStep_posting r env
  generalize r.takeStep env = next at hs hc hresumes hended hposting ⊢
  obtain ⟨r', post⟩ := next
  dsimp only at *
  cases hposting with
  | nothing hposts hpc => exact h.quiet hk hs hc hposts hpc hresumes hended
  | startEarly hposts hpc hpc' =>
    refine h.pushTask hk hs hc (.inl rfl) ?_ ?_ hended
      ((h.books k r hk).pushStart hposts hpc hpc' hresumes hended)
    · rintro j (heq | ⟨b, heq⟩)
      · cases heq
        rfl
      · cases heq
    · rintro t ht j b rfl heq
      cases heq
      exact hpc b ((h.books k r hk).endsAs b ht)
  | ended hposts hpc hpc' =>
    refine h.pushTask hk hs hc (.inr ⟨_, rfl⟩) ?_ ?_ hended
      ((h.books k r hk).pushEnd hposts hpc hpc' hresumes hended)
    · rintro j (heq | ⟨b, heq⟩)
      · cases heq
      · cases heq
        rfl
    · intro t ht j b _ heq
      cases heq

theorem takeResult_booked (r : Ranking) (member : ℤ) (works : Bool) :
    (r.takeResult member works).posts = r.posts ∧ (r.takeResult member works).pc = r.pc ∧
      (r.takeResult member works).resumes = r.resumes ∧
        (r.takeResult member works).ended = r.ended ∧
          (r.takeResult member works).start = r.start := by
  unfold Ranking.takeResult
  split <;> exact ⟨rfl, rfl, rfl, rfl, rfl⟩

theorem takeEnd_booked (r : Ranking) :
    r.takeEnd.posts = r.posts ∧ r.takeEnd.pc = r.pc ∧ r.takeEnd.resumes = r.resumes ∧
      r.takeEnd.ended = r.ended ∧ r.takeEnd.start = r.start := by
  unfold Ranking.takeEnd
  split <;> exact ⟨rfl, rfl, rfl, rfl, rfl⟩

/-- The main thread takes a task that names no ranking. -/
theorem Booked.popOther {task : Task} {later : List Task} (h : Booked s)
    (hqueue : s.queue = task :: later) (hname : ∀ k, ¬ Task.names task k) :
    Booked { s with queue := later } where
  signals := h.signals
  counts := h.counts
  named := fun t ht => h.named t (hqueue ▸ List.mem_cons_of_mem _ ht)
  order := by
    have horder := h.order
    rw [hqueue] at horder
    exact horder.of_cons
  books := by
    intro k r hr
    have hbook := h.books k r hr
    rw [hqueue] at hbook
    exact hbook.pop (fun heq => hname k (.inl heq)) fun b heq => hname k (.inr ⟨b, heq⟩)
  inFlight := h.inFlight

theorem Booked.pushOther {task : Task} (h : Booked s) (hname : ∀ k, ¬ Task.names task k) :
    Booked { s with queue := s.queue ++ [task] } where
  signals := h.signals
  counts := h.counts
  named := by
    intro t ht k hk
    rcases List.mem_append.mp ht with ht | ht
    · exact h.named t ht k hk
    · rw [List.mem_singleton.mp ht] at hk
      exact absurd hk (hname k)
  order := by
    refine List.pairwise_append.mpr ⟨h.order, List.pairwise_singleton _ _, ?_⟩
    intro t _ u hu k b _ heq
    rw [List.mem_singleton.mp hu] at heq
    exact hname k (.inl heq)
  books := fun k r hr => (h.books k r hr).push (fun heq => hname k (.inl heq))
    fun b heq => hname k (.inr ⟨b, heq⟩)
  inFlight := h.inFlight

/-- The main thread takes a task of a ranking and notes it there. -/
theorem Booked.popTask {task : Task} {later : List Task} (h : Booked s)
    (hqueue : s.queue = task :: later) {k : ℕ} {r r' : Ranking} (hk : s.rankings[k]? = some r)
    (hother : ∀ j, Task.names task j → j = k) (hs : Signals r') (hc : Counts r')
    (hbook : BookedAt later k r') {inFlight : ℕ}
    (hflight : inFlight + (if !r.ended then 1 else 0) =
      s.rankingInFlight_ + (if !r'.ended then 1 else 0)) :
    Booked { s.setRanking k r' with queue := later, rankingInFlight_ := inFlight } where
  signals := by
    intro q hq
    rcases List.mem_or_eq_of_mem_set hq with hq | rfl
    · exact h.signals q hq
    · exact hs
  counts := by
    intro q hq
    rcases List.mem_or_eq_of_mem_set hq with hq | rfl
    · exact h.counts q hq
    · exact hc
  named := by
    intro t ht j hj
    unfold setRanking
    rw [List.length_set]
    exact h.named t (hqueue ▸ List.mem_cons_of_mem _ ht) j hj
  order := by
    have horder := h.order
    rw [hqueue] at horder
    exact horder.of_cons
  books := by
    intro j q hq
    rcases getElem?_set_cases hq with ⟨rfl, rfl⟩ | ⟨hne, hq⟩
    · exact hbook
    · have hold := h.books j q hq
      rw [hqueue] at hold
      refine hold.pop ?_ ?_
      · exact fun heq => hne (hother j (.inl heq))
      · exact fun b heq => hne (hother j (.inr ⟨b, heq⟩))
  inFlight := by
    have hcount := countP_step (b := r') (fun q => !q.ended) hk
    have hold := h.inFlight
    unfold setRanking
    dsimp only
    omega

theorem Booked.finishEarlySweep (h : Booked s) (connecting : Bool) (st : Start) :
    Booked (s.finishEarlySweep connecting st) := by
  unfold Controller.finishEarlySweep
  split <;> exact h.congr rfl rfl rfl

theorem noted {r : Ranking} (hs : Signals r) (hc : Counts r) (resumes : ℕ) (ended : Bool) :
    Signals { r with resumes, ended } ∧ Counts { r with resumes, ended } :=
  ⟨⟨hs.done, hs.permits, hs.met, hs.posts, hs.steps⟩,
    ⟨hc.fresh, hc.before, hc.asks, hc.nodup, hc.disjoint, hc.results, hc.working, hc.met⟩⟩

/-- The ranking that a task names is there. -/
theorem Booked.get (h : Booked s) {task : Task} {later : List Task} (hqueue : s.queue = task :: later)
    {k : ℕ} (hname : Task.names task k) : ∃ r, s.rankings[k]? = some r ∧ Signals r ∧ Counts r ∧
      BookedAt (task :: later) k r := by
  have hmem : task ∈ s.queue := hqueue ▸ List.mem_cons_self
  have hk := List.getElem?_eq_getElem (h.named task hmem k hname)
  have hr := List.mem_of_getElem? hk
  exact ⟨_, hk, h.signals _ hr, h.counts _ hr, hqueue ▸ h.books k _ hk⟩

/-- **A task of the main thread.** -/
theorem Booked.runTask {task : Task} {later : List Task} (h : Booked s)
    (hqueue : s.queue = task :: later) (env : TaskEnv) :
    Booked ({ s with queue := later }.runTask env task) := by
  cases task with
  | startEarly k =>
    obtain ⟨r, hk, hs, hc, hbook⟩ := h.get hqueue (.inl rfl)
    obtain ⟨-, hnext⟩ := hbook.runStart hs.posts_le fun hpc => (hs.outcome hpc).1
    obtain ⟨hs', hc'⟩ := noted hs hc (r.resumes + 1) r.ended
    dsimp only [Controller.runTask]
    rw [hk]
    refine Booked.resume ?_ env r
    refine h.popTask hqueue hk ?_ hs' hc' hnext rfl
    rintro j (heq | ⟨b, heq⟩)
    · cases heq
      rfl
    · cases heq
  | rankEnded k startedEarly =>
    obtain ⟨r, hk, hs, hc, hbook⟩ := h.get hqueue (.inr ⟨startedEarly, rfl⟩)
    have horder := h.order
    rw [hqueue] at horder
    have hnone : Task.startEarly k ∉ later := fun hmem =>
      List.rel_of_pairwise_cons horder hmem k startedEarly rfl rfl
    obtain ⟨-, hlive, -, hnext⟩ := hbook.runEnd hnone
    obtain ⟨hs', hc'⟩ := noted hs hc (r.resumes + (!startedEarly).toNat) true
    have hflight : s.rankingInFlight_ - 1 + (if !r.ended then 1 else 0) =
        s.rankingInFlight_ + (if !true then 1 else 0) := by
      have hpos : 0 < s.rankings.countP fun q => !q.ended :=
        List.countP_pos_iff.mpr ⟨r, List.mem_of_getElem? hk, by simp [hlive]⟩
      have hcount := h.inFlight
      rw [hlive]
      simp only [Bool.not_false, Bool.not_true, if_true, Bool.false_eq_true, if_false]
      omega
    have hother : ∀ j, Task.names (.rankEnded k startedEarly) j → j = k := by
      rintro j (heq | ⟨b, heq⟩)
      · cases heq
      · cases heq
        rfl
    have hpop := h.popTask hqueue hk hother hs' hc' hnext hflight
    dsimp only [Controller.runTask]
    rw [hk]
    cases startedEarly with
    | true => exact hpop.finishEarlySweep env.connecting _
    | false => exact hpop.resume env r
  | rebuild st changed =>
    have hpop := h.popOther hqueue (by rintro k (heq | ⟨b, heq⟩) <;> cases heq)
    dsimp only [Controller.runTask]
    split
    · exact hpop
    · exact hpop.ofCases (startRanked_cases _ env.start st)

theorem Booked.step (h : Booked s) (ev : Event) : Booked (s.step ev) := by
  cases ev with
  | start profile env =>
    have hroot : Booked { s with roots := s.roots + 1 } := h.congr rfl rfl rfl
    exact hroot.ofCases (start_cases _ env _)
  | exhausted profile lastBuilt =>
    exact (h.begin ⟨s.roots, profile, .start, false⟩ true lastBuilt).congr rfl rfl rfl
  | rank k env =>
    dsimp only [Controller.step]
    split
    · exact h
    · rename_i r hk
      exact h.rank hk env
  | result k member works =>
    dsimp only [Controller.step]
    split
    · exact h
    · rename_i r hk
      have hmem := List.mem_of_getElem? hk
      obtain ⟨hposts, hpc, hresumes, hended, -⟩ := takeResult_booked r member works
      exact h.quiet hk ((h.signals r hmem).takeResult member works)
        ((h.counts r hmem).takeResult member works) hposts (fun b => by rw [hpc]) hresumes hended
  | testsEnd k =>
    dsimp only [Controller.step]
    split
    · exact h
    · rename_i r hk
      have hmem := List.mem_of_getElem? hk
      obtain ⟨hposts, hpc, hresumes, hended, -⟩ := takeEnd_booked r
      exact h.quiet hk (h.signals r hmem).takeEnd (h.counts r hmem).takeEnd hposts
        (fun b => by rw [hpc]) hresumes hended
  | task env =>
    dsimp only [Controller.step]
    split
    · exact h
    · rename_i task later hqueue
      exact h.runTask hqueue env
  | settles j connecting =>
    dsimp only [Controller.step]
    split
    · exact h
    · rename_i st _
      have hsettles : Booked { s with settling := s.settling.eraseIdx j } := h.congr rfl rfl rfl
      exact hsettles.finishEarlySweep connecting st
  | ranked j changed =>
    dsimp only [Controller.step]
    split
    · exact h
    · rename_i st _
      have hname : ∀ k, ¬ Task.names (.rebuild st changed) k := by
        rintro k (heq | ⟨b, heq⟩) <;> cases heq
      have hpush := h.pushOther hname
      exact hpush.congr rfl rfl rfl
  | unpark i env =>
    dsimp only [Controller.step]
    split
    · exact h
    · rename_i st _
      have hpark : Booked { s with parked := s.parked.eraseIdx i } := h.congr rfl rfl rfl
      exact hpark.ofCases (start_cases _ env st)
  | drop i => exact h.congr rfl rfl rfl

end Throned.Engine.AutoSelector.Controller
