import Mathlib.Order.Nat
import Throned.Model.ConnectionManager

/-!
# Requests and their answers

A request that a step has taken in its hand is counted beside those that wait: each pass of
`start`, each slot and each answer puts it back to exactly one place.
-/

set_option autoImplicit false

namespace Throned.Engine.ConnectionManager

variable {s : ConnectionManager} {request : StartRequest} {hand : List StartRequest} {t : ℕ}

/-! ## Counting tickets -/

@[simp] theorem ticketCount_nil : ticketCount t [] = 0 := rfl

@[simp] theorem ticketCount_append (xs ys : List StartRequest) :
    ticketCount t (xs ++ ys) = ticketCount t xs + ticketCount t ys := List.countP_append

theorem ticketCount_cons (xs : List StartRequest) :
    ticketCount t (request :: xs) = ticketCount t [request] + ticketCount t xs :=
  ticketCount_append [request] xs

theorem ticketCount_self (h : request.ticket = some t) : ticketCount t [request] = 1 := by
  simp [ticketCount, h]

theorem ticketCount_of_none (h : request.ticket = none) : ticketCount t [request] = 0 := by
  simp [ticketCount, h]

/-- The places of a ticket, the answers included. -/
def tally (s : ConnectionManager) (t : ℕ) : ℕ :=
  ticketCount t s.waiting + ticketCount t (s.finished.map Finish.request)

/-- The places from which a worker may still be started, and the workers that were. -/
def launchTally (s : ConnectionManager) (t : ℕ) : ℕ :=
  ticketCount t s.parked + ticketCount t s.launched

theorem tally_eq (s : ConnectionManager) (t : ℕ) :
    s.tally t = ticketCount t s.m_killSwitchDeferredStart.toList +
      ticketCount t s.m_coreStartRequest.toList +
      ticketCount t (s.rankings.flatMap Ranking.waiting) +
      ticketCount t (s.worker.toList.flatMap StartWorker.waiting) +
      ticketCount t (s.posted.map Finish.request) +
      ticketCount t (s.finished.map Finish.request) := by
  unfold tally waiting parked
  simp only [ticketCount_append]

theorem launchTally_eq (s : ConnectionManager) (t : ℕ) :
    s.launchTally t = ticketCount t s.m_killSwitchDeferredStart.toList +
      ticketCount t s.m_coreStartRequest.toList +
      ticketCount t (s.rankings.flatMap Ranking.waiting) + ticketCount t s.launched := by
  unfold launchTally parked
  simp only [ticketCount_append]

theorem mem_parked {r : StartRequest} : r ∈ s.parked ↔ s.m_killSwitchDeferredStart = some r ∨
    s.m_coreStartRequest = some r ∨ r ∈ s.rankings.flatMap Ranking.waiting := by
  unfold parked
  rw [List.mem_append, List.mem_append, Option.mem_toList, Option.mem_toList, or_assoc]

/-- A superseded request has lost its slot to another one, or to the core. -/
def Finish.Justified (f : Finish) : Prop :=
  f.outcome = .Superseded →
    (∃ other, f.replacedBy = some (.request other) ∧ other.ticket ≠ f.request.ticket) ∨
      ∃ profileId, f.replacedBy = some (.core profileId) ∧ profileId ≠ f.request.profileId

/-- What holds while a step has some requests in its hand. -/
structure KeptWith (s : ConnectionManager) (hand : List StartRequest) : Prop where
  counted : ∀ t, s.tally t + ticketCount t hand = if t < s.tickets then 1 else 0
  launches : ∀ t, s.launchTally t + ticketCount t hand ≤ if t < s.tickets then 1 else 0
  ticketed : ∀ request ∈ s.parked, request.ticket.isSome
  coreSlot : ∀ request, s.m_coreStartRequest = some request → 0 ≤ request.profileId
  settles : s.m_killSwitchDeferredStart.isSome → s.settleWaiter = true
  lock : s.mu_starting = s.worker.isSome
  superseded : ∀ f ∈ s.finished, Finish.Justified f
  fromWorker : ∀ f ∈ s.posted, f.outcome ≠ .Superseded

theorem init_kept : init.KeptWith [] where
  counted _ := rfl
  launches _ := Nat.zero_le _
  ticketed _ h := absurd h List.not_mem_nil
  coreSlot _ h := absurd h nofun
  settles h := absurd h nofun
  lock := rfl
  superseded _ h := absurd h List.not_mem_nil
  fromWorker _ h := absurd h List.not_mem_nil

/-- A step that leaves the places of the requests as they are. -/
theorem KeptWith.congr (h : s.KeptWith hand) {r : ConnectionManager}
    (hks : r.m_killSwitchDeferredStart = s.m_killSwitchDeferredStart)
    (hcore : r.m_coreStartRequest = s.m_coreStartRequest) (hrank : r.rankings = s.rankings)
    (hworker : r.worker = s.worker) (hposted : r.posted = s.posted)
    (hfinished : r.finished = s.finished) (hlaunched : r.launched = s.launched)
    (htickets : r.tickets = s.tickets) (hlock : r.mu_starting = s.mu_starting)
    (hwaiter : r.settleWaiter = s.settleWaiter) : r.KeptWith hand := by
  constructor
  · intro t
    rw [tally_eq, hks, hcore, hrank, hworker, hposted, hfinished, htickets, ← tally_eq]
    exact h.counted t
  · intro t
    rw [launchTally_eq, hks, hcore, hrank, hlaunched, htickets, ← launchTally_eq]
    exact h.launches t
  · intro request hmem
    rw [mem_parked, hks, hcore, hrank, ← mem_parked] at hmem
    exact h.ticketed request hmem
  · rw [hcore]
    exact h.coreSlot
  · rw [hks, hwaiter]
    exact h.settles
  · rw [hlock, hworker]
    exact h.lock
  · rw [hfinished]
    exact h.superseded
  · rw [hposted]
    exact h.fromWorker

/-- Two requests in the hand have different tickets. -/
theorem KeptWith.ticket_ne {other : StartRequest} (h : s.KeptWith (other :: request :: hand))
    (hsome : other.ticket.isSome) : request.ticket ≠ other.ticket := by
  intro heq
  obtain ⟨t, ht⟩ := Option.isSome_iff_exists.mp hsome
  have hl := h.launches t
  rw [ticketCount_cons, ticketCount_cons hand, ticketCount_self ht,
    ticketCount_self (heq.trans ht)] at hl
  split at hl <;> omega

/-! ## Answers -/

/-- **An answer takes the request out of the hand.** -/
theorem KeptWith.answer {f : Finish} (h : s.KeptWith (f.request :: hand))
    (hf : Finish.Justified f) : KeptWith { s with finished := s.finished ++ [f] } hand where
  counted t := by
    have hc := h.counted t
    rw [tally_eq, ticketCount_cons] at hc
    rw [tally_eq, List.map_append, ticketCount_append, List.map_singleton, ← hc]
    dsimp only
    omega
  launches t := by
    have hl := h.launches t
    rw [launchTally_eq, ticketCount_cons] at hl
    rw [launchTally_eq]
    exact Nat.le_trans (Nat.add_le_add_left (Nat.le_add_left _ _) _) hl
  ticketed := h.ticketed
  coreSlot := h.coreSlot
  settles := h.settles
  lock := h.lock
  superseded g hg := by
    rcases List.mem_append.mp hg with hg | hg
    · exact h.superseded g hg
    · rw [List.mem_singleton.mp hg]
      exact hf
  fromWorker := h.fromWorker

theorem KeptWith.finish (h : s.KeptWith (request :: hand)) {outcome : StartOutcome}
    (hne : outcome ≠ .Superseded) : (s.finish request outcome).KeptWith hand :=
  h.answer (f := ⟨request, outcome, none⟩) fun heq => absurd heq hne

/-! ## Slots -/

/-- The slot of the core is emptied into the hand. -/
theorem KeptWith.takeCore (h : s.KeptWith hand) :
    KeptWith { s with m_coreStartRequest := none } (s.m_coreStartRequest.toList ++ hand) where
  counted t := by
    have hc := h.counted t
    rw [tally_eq] at hc
    rw [tally_eq, ticketCount_append, Option.toList_none, ticketCount_nil, ← hc]
    dsimp only
    omega
  launches t := by
    have hl := h.launches t
    rw [launchTally_eq] at hl
    rw [launchTally_eq, ticketCount_append, Option.toList_none, ticketCount_nil]
    dsimp only
    omega
  ticketed r hr := by
    rw [mem_parked] at hr
    apply h.ticketed r
    rw [mem_parked]
    exact hr.imp_right fun hr => .inr (hr.resolve_left nofun)
  coreSlot _ hr := absurd hr nofun
  settles := h.settles
  lock := h.lock
  superseded := h.superseded
  fromWorker := h.fromWorker

theorem ticketCount_slotOf (hticket : 0 ≤ request.profileId ↔ request.ticket.isSome) :
    ticketCount t (slotOf request).toList = ticketCount t [request] := by
  unfold slotOf
  split
  · rfl
  · rename_i hneg
    rw [hticket, Option.not_isSome_iff_eq_none] at hneg
    rw [ticketCount_of_none hneg]
    rfl

/-- A request in the hand goes to the slot of the core, which is empty. -/
theorem KeptWith.putCore (h : s.KeptWith (request :: hand)) (hnone : s.m_coreStartRequest = none)
    (hticket : 0 ≤ request.profileId ↔ request.ticket.isSome) :
    KeptWith { s with m_coreStartRequest := slotOf request } hand where
  counted t := by
    have hc := h.counted t
    rw [tally_eq, hnone, Option.toList_none, ticketCount_nil, ticketCount_cons] at hc
    rw [tally_eq, ticketCount_slotOf hticket, ← hc]
    dsimp only
    omega
  launches t := by
    have hl := h.launches t
    rw [launchTally_eq, hnone, Option.toList_none, ticketCount_nil, ticketCount_cons] at hl
    rw [launchTally_eq, ticketCount_slotOf hticket]
    dsimp only
    omega
  ticketed r hr := by
    rw [mem_parked] at hr
    rcases hr with hr | hr | hr
    · exact h.ticketed r (mem_parked.mpr (.inl hr))
    · simp only [slotOf] at hr
      split at hr
      · rename_i hpos
        cases hr
        exact hticket.mp hpos
      · cases hr
    · exact h.ticketed r (mem_parked.mpr (.inr (.inr hr)))
  coreSlot r hr := by
    simp only [slotOf] at hr
    split at hr
    · rename_i hpos
      cases hr
      exact hpos
    · cases hr
  settles := h.settles
  lock := h.lock
  superseded := h.superseded
  fromWorker := h.fromWorker

/-- **The slot of the core takes a request, and answers the one that it held.** -/
theorem KeptWith.deferStartToCore (h : s.KeptWith (request :: hand))
    (hticket : 0 ≤ request.profileId ↔ request.ticket.isSome) :
    (s.deferStartToCore request).KeptWith hand := by
  unfold ConnectionManager.deferStartToCore
  cases hslot : s.m_coreStartRequest with
  | none => exact h.putCore hslot hticket
  | some waiting =>
    have htaken := h.takeCore
    rw [hslot] at htaken
    have hsome := h.ticketed waiting (mem_parked.mpr (.inr (.inl hslot)))
    have hanswered := htaken.answer (f := ⟨waiting, .Superseded, some (.request request)⟩)
      fun _ => .inl ⟨request, rfl, htaken.ticket_ne hsome⟩
    exact hanswered.putCore rfl hticket

/-- The slot for the kill switch is emptied into the hand. -/
theorem KeptWith.takeKillSwitch (h : s.KeptWith hand) (waiter : Bool) :
    KeptWith { s with m_killSwitchDeferredStart := none, settleWaiter := waiter }
      (s.m_killSwitchDeferredStart.toList ++ hand) where
  counted t := by
    have hc := h.counted t
    rw [tally_eq] at hc
    rw [tally_eq, ticketCount_append, Option.toList_none, ticketCount_nil, ← hc]
    dsimp only
    omega
  launches t := by
    have hl := h.launches t
    rw [launchTally_eq] at hl
    rw [launchTally_eq, ticketCount_append, Option.toList_none, ticketCount_nil]
    dsimp only
    omega
  ticketed r hr := by
    rw [mem_parked] at hr
    apply h.ticketed r
    rw [mem_parked]
    exact .inr (hr.resolve_left nofun)
  coreSlot := h.coreSlot
  settles hsome := absurd hsome nofun
  lock := h.lock
  superseded := h.superseded
  fromWorker := h.fromWorker

theorem KeptWith.putKillSwitch (h : s.KeptWith (request :: hand))
    (hnone : s.m_killSwitchDeferredStart = none) (hticket : request.ticket.isSome) :
    KeptWith { s with m_killSwitchDeferredStart := some request, settleWaiter := true } hand where
  counted t := by
    have hc := h.counted t
    rw [tally_eq, hnone, Option.toList_none, ticketCount_nil, ticketCount_cons] at hc
    rw [tally_eq, Option.toList_some, ← hc]
    dsimp only
    omega
  launches t := by
    have hl := h.launches t
    rw [launchTally_eq, hnone, Option.toList_none, ticketCount_nil, ticketCount_cons] at hl
    rw [launchTally_eq, Option.toList_some]
    dsimp only
    omega
  ticketed r hr := by
    rw [mem_parked] at hr
    rcases hr with hr | hr
    · cases hr
      exact hticket
    · exact h.ticketed r (mem_parked.mpr (.inr hr))
  coreSlot := h.coreSlot
  settles _ := rfl
  lock := h.lock
  superseded := h.superseded
  fromWorker := h.fromWorker

/-- **The slot for the kill switch takes a request, and answers the one that it held.** -/
theorem KeptWith.deferToKillSwitch (h : s.KeptWith (request :: hand))
    (hticket : request.ticket.isSome) : (s.deferToKillSwitch request).KeptWith hand := by
  unfold ConnectionManager.deferToKillSwitch
  cases hslot : s.m_killSwitchDeferredStart with
  | none => exact h.putKillSwitch hslot hticket
  | some waiting =>
    have hwaiter := h.settles (Option.isSome_iff_exists.mpr ⟨waiting, hslot⟩)
    have htaken := h.takeKillSwitch true
    rw [hslot] at htaken
    have hsome := h.ticketed waiting (mem_parked.mpr (.inl hslot))
    have hanswered := htaken.answer (f := ⟨waiting, .Superseded, some (.request request)⟩)
      fun _ => .inl ⟨request, rfl, htaken.ticket_ne hsome⟩
    refine (hanswered.putKillSwitch rfl hticket).congr rfl rfl rfl rfl rfl rfl rfl rfl rfl ?_
    exact hwaiter

theorem KeptWith.restartCoreForGuard (h : s.KeptWith (request :: hand)) (haveCore : Bool)
    (hticket : 0 ≤ request.profileId ↔ request.ticket.isSome) :
    (s.restartCoreForGuard haveCore request).KeptWith hand := by
  unfold ConnectionManager.restartCoreForGuard
  split
  · exact h.finish nofun
  · have hdeferred := h.deferStartToCore hticket
    simp only
    split
    · exact hdeferred
    · exact hdeferred.congr rfl rfl rfl rfl rfl rfl rfl rfl rfl rfl

/-! ## A pass of `start` -/

theorem KeptWith.rankBeforeStart (h : s.KeptWith (request :: hand)) (env : StartEnv)
    (hticket : request.ticket.isSome) :
    (s.rankBeforeStart env request).2.KeptWith
      (if (s.rankBeforeStart env request).1 then hand else request :: hand) := by
  have hranked : KeptWith { s with rankedFor := -1 } (request :: hand) :=
    h.congr rfl rfl rfl rfl rfl rfl rfl rfl rfl rfl
  unfold ConnectionManager.rankBeforeStart
  simp only
  split
  · exact hranked
  · split
    · exact hranked
    · constructor
      · intro t
        have hc := hranked.counted t
        rw [tally_eq, ticketCount_cons] at hc
        rw [tally_eq, List.flatMap_append, ticketCount_append, ← hc]
        change _ + (_ + ticketCount t [request]) + _ + _ + _ + ticketCount t hand = _
        simp only
        omega
      · intro t
        have hl := hranked.launches t
        rw [launchTally_eq, ticketCount_cons] at hl
        rw [launchTally_eq, List.flatMap_append, ticketCount_append]
        change _ + (_ + ticketCount t [request]) + _ + ticketCount t hand ≤ _
        simp only at hl ⊢
        omega
      · intro r hr
        rw [mem_parked, List.flatMap_append, List.mem_append] at hr
        rcases hr with hr | hr | hr | hr
        · exact h.ticketed r (mem_parked.mpr (.inl hr))
        · exact h.ticketed r (mem_parked.mpr (.inr (.inl hr)))
        · exact h.ticketed r (mem_parked.mpr (.inr (.inr hr)))
        · change r ∈ [request] at hr
          rw [List.mem_singleton.mp hr]
          exact hticket
      · exact h.coreSlot
      · exact h.settles
      · exact h.lock
      · exact h.superseded
      · exact h.fromWorker

/-- The lock is taken, and the worker is started. -/
theorem KeptWith.launch (h : s.KeptWith (request :: hand)) (hfree : s.mu_starting = false) :
    KeptWith { s with
      mu_starting := true
      worker := some ⟨request, false⟩
      launched := s.launched ++ [request] } hand := by
  have hnone : s.worker = none := by
    rw [← Option.not_isSome_iff_eq_none, ← h.lock, hfree]
    exact Bool.false_ne_true
  constructor
  · intro t
    have hc := h.counted t
    rw [tally_eq, hnone, Option.toList_none, List.flatMap_nil, ticketCount_nil,
      ticketCount_cons] at hc
    rw [tally_eq, Option.toList_some, ← hc]
    change _ + ticketCount t [request] + _ + _ + _ = _
    simp only
    omega
  · intro t
    have hl := h.launches t
    rw [launchTally_eq, ticketCount_cons] at hl
    rw [launchTally_eq, ticketCount_append]
    simp only
    omega
  · exact h.ticketed
  · exact h.coreSlot
  · exact h.settles
  · rfl
  · exact h.superseded
  · exact h.fromWorker

/-- What happens under the lock for a moment does not show. -/
theorem KeptWith.relock (h : s.KeptWith hand) (hfree : s.mu_starting = false) :
    KeptWith { s with mu_starting := false } hand :=
  h.congr rfl rfl rfl rfl rfl rfl rfl rfl hfree.symm rfl

theorem deferStartToCore_mu_starting (s : ConnectionManager) (request : StartRequest) (b : Bool) :
    { ConnectionManager.deferStartToCore { s with mu_starting := true } request with
      mu_starting := b } =
    { ConnectionManager.deferStartToCore s request with mu_starting := b } := by
  unfold ConnectionManager.deferStartToCore ConnectionManager.supersede
  simp only
  split <;> rfl

theorem mu_starting_deferStartToCore (s : ConnectionManager) (request : StartRequest) :
    (s.deferStartToCore request).mu_starting = s.mu_starting := by
  unfold ConnectionManager.deferStartToCore ConnectionManager.supersede
  simp only
  split <;> rfl

theorem KeptWith.startBuilt (h : s.KeptWith (request :: hand)) (env : StartEnv)
    (hticket : 0 ≤ request.profileId ↔ request.ticket.isSome) :
    (s.startBuilt env request).KeptWith hand := by
  unfold ConnectionManager.startBuilt
  split
  · exact h.finish nofun
  · split
    · exact h.finish nofun
    · split
      · exact h.finish nofun
      · rename_i hlock
        have hfree : s.mu_starting = false := eq_false_of_ne_true hlock
        have hdeferred := (h.deferStartToCore hticket).relock
          ((mu_starting_deferStartToCore s request).trans hfree)
        rw [← deferStartToCore_mu_starting] at hdeferred
        simp only
        split
        · exact (h.relock hfree).finish nofun
        · split
          · exact hdeferred
          · split
            · split
              · exact (h.relock hfree).finish nofun
              · exact hdeferred
            · exact h.launch hfree

/-- **A pass of `start` puts its request to one place.** -/
theorem KeptWith.start (h : s.KeptWith (request :: hand)) (env : StartEnv)
    (hticket : request.ticket.isSome) : (s.start env request).KeptWith hand := by
  unfold ConnectionManager.start
  split
  · exact h.finish nofun
  · split
    · exact h.finish nofun
    · rename_i hfound
      have hslot : 0 ≤ request.profileId ↔ request.ticket.isSome :=
        ⟨fun _ => hticket, fun _ => Int.not_lt.mp fun hneg => hfound (.inl hneg)⟩
      split
      · exact h.finish nofun
      · split
        · exact h.deferToKillSwitch hticket
        · split
          · exact h.finish nofun
          · split
            · exact h.restartCoreForGuard env.haveCore hslot
            · have hranked := h.rankBeforeStart env hticket
              split
              · rename_i heq
                rw [heq] at hranked
                exact hranked
              · rename_i heq
                rw [heq] at hranked
                exact hranked.startBuilt env hslot

end Throned.Engine.ConnectionManager
