import Throned.Analysis.StartSteps

/-!
# Every request is answered once

Every step keeps each request in one place: it waits for the kill switch, for the core, for a
ranking, for its worker or for its posted outcome, or it has been answered.
-/

set_option autoImplicit false

namespace Throned.Engine.ConnectionManager

open Throned.Library

variable {s : ConnectionManager} {request : StartRequest} {hand : List StartRequest}

/-! ## Requests that are made -/

theorem KeptWith.newRequest (h : s.KeptWith hand) (profileId : ℤ) (interactive : Bool)
    (serial : ℕ) :
    (s.newRequest profileId interactive serial).2.KeptWith
      ((s.newRequest profileId interactive serial).1 :: hand) := by
  have hcount (t : ℕ) : ticketCount t [(s.newRequest profileId interactive serial).1] =
      if t = s.tickets then 1 else 0 := by
    split
    · rename_i heq
      exact ticketCount_self (congrArg some heq.symm)
    · rename_i hne
      simp [ticketCount, ConnectionManager.newRequest, Ne.symm hne]
  refine ⟨fun t => ?_, fun t => ?_, h.ticketed, h.coreSlot, h.settles, h.lock, h.superseded,
    h.fromWorker⟩
  · have hc := h.counted t
    rw [ticketCount_cons, hcount]
    change s.tally t + _ = if t < s.tickets + 1 then 1 else 0
    split at hc <;> split <;> split <;> omega
  · have hl := h.launches t
    rw [ticketCount_cons, hcount]
    change s.launchTally t + _ ≤ if t < s.tickets + 1 then 1 else 0
    split at hl <;> split <;> split <;> omega

theorem KeptWith.startNew (h : s.KeptWith hand) (env : StartEnv) (profileId : ℤ)
    (interactive : Bool) (serial : ℕ) :
    (s.startNew env profileId interactive serial).KeptWith hand :=
  (h.newRequest profileId interactive serial).start env rfl

theorem KeptWith.setBootStart (h : s.KeptWith []) (profileId : ℤ) (interactive : Bool)
    (serial : ℕ) : (s.setBootStart profileId interactive serial).KeptWith [] := by
  have hserial : KeptWith { s with m_bootSerial := serial } [] :=
    h.congr rfl rfl rfl rfl rfl rfl rfl rfl rfl rfl
  unfold ConnectionManager.setBootStart
  simp only
  split
  · rename_i hneg
    have hhand : KeptWith { s with m_bootSerial := serial }
        [⟨profileId, interactive, serial, none⟩] := by
      refine ⟨fun t => ?_, fun t => ?_, hserial.ticketed, hserial.coreSlot, hserial.settles,
        hserial.lock, hserial.superseded, hserial.fromWorker⟩
      · rw [ticketCount_of_none rfl]
        exact hserial.counted t
      · rw [ticketCount_of_none rfl]
        exact hserial.launches t
    refine hhand.deferStartToCore ⟨fun hpos => ?_, fun hsome => absurd hsome nofun⟩
    exact absurd hpos (Int.not_le.mpr hneg)
  · rename_i hpos
    exact (hserial.newRequest profileId interactive serial).deferStartToCore
      ⟨fun _ => rfl, fun _ => Int.not_lt.mp hpos⟩

/-! ## The core -/

theorem KeptWith.coreStartRequest (h : s.KeptWith hand) (profileId : ℤ) :
    (s.coreStartRequest profileId none).2.KeptWith
      ((s.coreStartRequest profileId none).1 :: hand) :=
  h.newRequest profileId true 0

/-- **A core that has started takes the request of its profile, and answers any other.** -/
theorem KeptWith.takeCoreStart (h : s.KeptWith []) (env : CoreStartedEnv) (profileId : ℤ) :
    (s.takeCoreStart env profileId).KeptWith [] := by
  have htaken : KeptWith { s with m_coreStartRequest := none, m_bootSerial := 0 }
      (s.m_coreStartRequest.toList ++ []) :=
    h.takeCore.congr rfl rfl rfl rfl rfl rfl rfl rfl rfl rfl
  have hrun {r : ConnectionManager} {next : StartRequest} (hr : r.KeptWith [next])
      (hsome : next.ticket.isSome) : KeptWith
        (if env.tunRestoreHeld ∧ next.serial ≠ 0 ∧ next.serial = s.m_bootSerial then
          r.finish next .TunFailed
        else r.start env.start next) [] := by
    split
    · exact hr.finish nofun
    · exact hr.start env.start hsome
  unfold ConnectionManager.takeCoreStart
  cases hslot : s.m_coreStartRequest with
  | none =>
    rw [hslot] at htaken
    simp only
    split
    · exact htaken
    · exact hrun (htaken.newRequest profileId true 0) rfl
  | some waiting =>
    rw [hslot] at htaken
    have hsome := h.ticketed waiting (mem_parked.mpr (.inr (.inl hslot)))
    simp only [ConnectionManager.coreStartRequest]
    by_cases heq : waiting.profileId = profileId
    · rw [if_pos heq, if_pos heq, if_neg]
      · exact hrun htaken hsome
      · exact Int.not_lt.mpr (heq ▸ h.coreSlot waiting hslot)
    · rw [if_neg heq, if_neg heq]
      have hanswered := htaken.answer (f := ⟨waiting, .Superseded, some (.core profileId)⟩)
        fun _ => .inr ⟨profileId, rfl, Ne.symm heq⟩
      split
      · exact hanswered
      · exact hrun (hanswered.newRequest profileId true 0) rfl

theorem KeptWith.onCoreStarted (h : s.KeptWith []) (env : CoreStartedEnv) (profileId : ℤ) :
    (s.onCoreStarted env profileId).KeptWith [] := by
  unfold ConnectionManager.onCoreStarted
  simp only
  apply KeptWith.takeCoreStart
  have hguard : KeptWith { s with m_guardCoreRestart := none } [] :=
    h.congr rfl rfl rfl rfl rfl rfl rfl rfl rfl rfl
  generalize { s with m_guardCoreRestart := none } = r at hguard
  induction env.modeStarts generalizing r with
  | nil => exact hguard
  | cons modeStart later ih => exact ih _ (hguard.startNew modeStart.2 modeStart.1 true 0)

theorem KeptWith.onCoreGaveUp (h : s.KeptWith []) : s.onCoreGaveUp.KeptWith [] := by
  have htaken : KeptWith { s with m_coreStartRequest := none, m_guardCoreRestart := none }
      (s.m_coreStartRequest.toList ++ []) :=
    h.takeCore.congr rfl rfl rfl rfl rfl rfl rfl rfl rfl rfl
  unfold ConnectionManager.onCoreGaveUp
  simp only
  split
  · rename_i request hslot
    rw [hslot] at htaken
    exact htaken.finish nofun
  · exact h.congr rfl rfl rfl rfl rfl rfl rfl rfl rfl rfl

/-! ## The kill switch -/

theorem KeptWith.guardRequest (h : s.KeptWith []) (env : GuardEnv) :
    (s.guardRequest env).2.KeptWith [(s.guardRequest env).1] ∧
      (0 ≤ (s.guardRequest env).1.profileId ↔ (s.guardRequest env).1.ticket.isSome) := by
  unfold ConnectionManager.guardRequest
  split
  · rename_i hawaiting
    split
    · rename_i request hslot
      have htaken := h.takeCore
      rw [hslot] at htaken
      exact ⟨htaken, fun _ => h.ticketed request (mem_parked.mpr (.inr (.inl hslot))),
        fun _ => h.coreSlot request hslot⟩
    · exact ⟨h.newRequest env.startWhenUp true 0, fun _ => rfl, fun _ => hawaiting.2⟩
  · split
    · rename_i hpos
      exact ⟨h.newRequest env.started_id true 0, fun _ => rfl, fun _ => hpos⟩
    · rename_i hneg
      refine ⟨⟨fun t => ?_, fun t => ?_, h.ticketed, h.coreSlot, h.settles, h.lock, h.superseded,
        h.fromWorker⟩, fun hpos => absurd hpos hneg, fun hsome => absurd hsome nofun⟩
      · rw [ticketCount_of_none rfl]
        exact h.counted t
      · rw [ticketCount_of_none rfl]
        exact h.launches t

theorem KeptWith.killSwitchChanges (h : s.KeptWith []) (state : KillSwitchState)
    (env : GuardEnv) : (s.killSwitchChanges state env).KeptWith [] := by
  unfold ConnectionManager.killSwitchChanges onKillSwitchStateChanged
  have hnoted (failed armed : Bool) : KeptWith
      { s with
        killSwitch := state
        m_killSwitchWasFailed := failed
        m_killSwitchWasArmed := armed } [] :=
    h.congr rfl rfl rfl rfl rfl rfl rfl rfl rfl rfl
  simp only
  split
  · obtain ⟨hkept, hticket⟩ := (hnoted (state = .Failed) (state = .Armed)).guardRequest env
    exact hkept.restartCoreForGuard env.haveCore hticket
  · exact hnoted _ _

theorem KeptWith.killSwitchSettles (h : s.KeptWith []) (env : StartEnv) :
    (s.killSwitchSettles env).KeptWith [] := by
  unfold ConnectionManager.killSwitchSettles
  split
  · exact h
  · have htaken := h.takeKillSwitch false
    simp only
    split
    · rename_i request hslot
      rw [hslot] at htaken
      exact htaken.start env (h.ticketed request (mem_parked.mpr (.inl hslot)))
    · rename_i hslot
      rw [hslot] at htaken
      exact htaken

/-! ## Rankings -/

theorem rankAt_eq {k : ℕ} {phase : RankPhase} {ranking : Ranking}
    (h : s.rankAt k phase = some ranking) :
    s.rankings[k]? = some ranking ∧ ranking.phase = phase := by
  obtain ⟨hget, hphase⟩ := Option.filter_eq_some_iff.mp h
  exact ⟨hget, of_decide_eq_true hphase⟩

/-- By induction on the list, one waiting request for another. -/
theorem ticketCount_set (t : ℕ) (new : Ranking) {old : Ranking} :
    ∀ {rankings : List Ranking} {k : ℕ}, rankings[k]? = some old →
      ticketCount t ((rankings.set k new).flatMap Ranking.waiting) +
          ticketCount t old.waiting =
        ticketCount t (rankings.flatMap Ranking.waiting) + ticketCount t new.waiting
  | [], _, h => by cases h
  | first :: later, 0, h => by
    cases h
    rw [List.set_cons_zero, List.flatMap_cons, List.flatMap_cons, ticketCount_append,
      ticketCount_append]
    omega
  | first :: later, k + 1, h => by
    have ih := ticketCount_set t new (show later[k]? = some _ from h)
    rw [List.set_cons_succ, List.flatMap_cons, List.flatMap_cons, ticketCount_append,
      ticketCount_append]
    omega

theorem ticketCount_eraseIdx (t : ℕ) {old : Ranking} :
    ∀ {rankings : List Ranking} {k : ℕ}, rankings[k]? = some old →
      ticketCount t ((rankings.eraseIdx k).flatMap Ranking.waiting) +
          ticketCount t old.waiting =
        ticketCount t (rankings.flatMap Ranking.waiting)
  | [], _, h => by cases h
  | first :: later, 0, h => by
    cases h
    rw [List.eraseIdx_cons_zero, List.flatMap_cons, ticketCount_append]
    omega
  | first :: later, k + 1, h => by
    have ih := ticketCount_eraseIdx t (show later[k]? = some _ from h)
    rw [List.eraseIdx_cons_succ, List.flatMap_cons, List.flatMap_cons, ticketCount_append,
      ticketCount_append]
    omega

theorem KeptWith.setRankings (h : s.KeptWith []) {rankings : List Ranking}
    (hcount : ∀ t, ticketCount t (rankings.flatMap Ranking.waiting) + ticketCount t hand =
      ticketCount t (s.rankings.flatMap Ranking.waiting))
    (hmem : ∀ r ∈ rankings.flatMap Ranking.waiting, r ∈ s.rankings.flatMap Ranking.waiting) :
    KeptWith { s with rankings := rankings } hand := by
  refine ⟨fun t => ?_, fun t => ?_, fun r hr => ?_, h.coreSlot, h.settles, h.lock, h.superseded,
    h.fromWorker⟩
  · have hc := h.counted t
    rw [tally_eq, ← hcount, ticketCount_nil] at hc
    rw [tally_eq, ← hc]
    dsimp only
    omega
  · have hl := h.launches t
    rw [launchTally_eq, ← hcount, ticketCount_nil] at hl
    rw [launchTally_eq]
    dsimp only
    omega
  · rw [mem_parked] at hr
    exact h.ticketed r (mem_parked.mpr (hr.imp_right fun hr => hr.imp_right (hmem r)))

theorem mem_waiting_set {new : Ranking} {rankings : List Ranking} {k : ℕ} {r : StartRequest}
    (h : r ∈ (rankings.set k new).flatMap Ranking.waiting) :
    r ∈ rankings.flatMap Ranking.waiting ∨ r ∈ new.waiting := by
  rw [List.mem_flatMap] at h
  obtain ⟨ranking, hmem, hr⟩ := h
  rcases List.mem_or_eq_of_mem_set hmem with hold | rfl
  · exact .inl (List.mem_flatMap.mpr ⟨ranking, hold, hr⟩)
  · exact .inr hr

theorem KeptWith.startRanked (h : s.KeptWith [request]) (env : StartEnv)
    (hticket : request.ticket.isSome) : (s.startRanked env request).KeptWith [] := by
  have hranked : KeptWith { s with rankedFor := request.profileId } [request] :=
    h.congr rfl rfl rfl rfl rfl rfl rfl rfl rfl rfl
  exact (hranked.start env hticket).congr rfl rfl rfl rfl rfl rfl rfl rfl rfl rfl

/-- The phase of a ranking moves on, and its request with it or into the hand. -/
theorem KeptWith.setRanking (h : s.KeptWith []) {k : ℕ} {old new : Ranking}
    (hget : s.rankings[k]? = some old)
    (hwaiting : ∀ t, ticketCount t new.waiting + ticketCount t hand = ticketCount t old.waiting)
    (hmem : ∀ r ∈ new.waiting, r ∈ old.waiting) : (s.setRanking k new).KeptWith hand := by
  refine h.setRankings (fun t => ?_) fun r hr => ?_
  · have hset := ticketCount_set t new hget
    have hw := hwaiting t
    omega
  · rcases mem_waiting_set hr with hr | hr
    · exact hr
    · exact List.mem_flatMap.mpr ⟨old, List.mem_of_getElem? hget, hmem r hr⟩

theorem KeptWith.dropRanking (h : s.KeptWith []) {k : ℕ} {old : Ranking}
    (hget : s.rankings[k]? = some old)
    (hwaiting : ∀ t, ticketCount t hand = ticketCount t old.waiting) :
    (s.dropRanking k).KeptWith hand := by
  refine h.setRankings (fun t => ?_) fun r hr => ?_
  · rw [hwaiting]
    exact ticketCount_eraseIdx t hget
  · rw [List.mem_flatMap] at hr ⊢
    obtain ⟨ranking, hranking, hr⟩ := hr
    exact ⟨ranking, List.mem_of_mem_eraseIdx hranking, hr⟩

theorem waiting_of_phase {ranking : Ranking} (h : ranking.phase ≠ .measuringOn) :
    ranking.waiting = [ranking.request] := by
  unfold Ranking.waiting
  split
  · rename_i heq
    exact absurd heq h
  · rfl

theorem ranking_ticketed (h : s.KeptWith []) {k : ℕ} {ranking : Ranking}
    (hget : s.rankings[k]? = some ranking) (hphase : ranking.phase ≠ .measuringOn) :
    ranking.request.ticket.isSome := by
  apply h.ticketed
  refine mem_parked.mpr (.inr (.inr (List.mem_flatMap.mpr
    ⟨ranking, List.mem_of_getElem? hget, ?_⟩)))
  rw [waiting_of_phase hphase]
  exact List.mem_singleton_self _

/-- The phases in which a ranking waits keep its request. -/
theorem KeptWith.advanceRanking (h : s.KeptWith []) {k : ℕ} {old phase : RankPhase}
    {ranking : Ranking} (hat : s.rankAt k old = some ranking) (hold : old ≠ .measuringOn)
    (hnew : phase ≠ .measuringOn) :
    (s.setRanking k { ranking with phase := phase }).KeptWith [] := by
  obtain ⟨hget, rfl⟩ := rankAt_eq hat
  have hsame : Ranking.waiting { ranking with phase := phase } = ranking.waiting := by
    rw [waiting_of_phase hold, waiting_of_phase hnew]
  exact h.setRanking hget (fun t => by rw [hsame]; rfl) fun r hr => hsame ▸ hr

theorem KeptWith.resumesEarly (h : s.KeptWith []) (k : ℕ) (env : StartEnv) :
    (s.resumesEarly k env).KeptWith [] := by
  unfold ConnectionManager.resumesEarly
  split
  · exact h
  · rename_i ranking hat
    obtain ⟨hget, hphase⟩ := rankAt_eq hat
    have hne : ranking.phase ≠ .measuringOn := hphase ▸ nofun
    have hmoved : (s.setRanking k { ranking with phase := .measuringOn }).KeptWith
        [ranking.request] := by
      refine h.setRanking hget (fun t => ?_) fun r hr => absurd hr List.not_mem_nil
      rw [waiting_of_phase hne]
      exact Nat.zero_add _
    exact hmoved.startRanked env (ranking_ticketed h hget hne)

theorem KeptWith.resumes (h : s.KeptWith []) (k : ℕ) (env : StartEnv) :
    (s.resumes k env).KeptWith [] := by
  unfold ConnectionManager.resumes
  split
  · exact h
  · rename_i ranking hat
    obtain ⟨hget, hphase⟩ := rankAt_eq hat
    have hne : ranking.phase ≠ .measuringOn := hphase ▸ nofun
    have hdropped : (s.dropRanking k).KeptWith [ranking.request] :=
      h.dropRanking hget fun t => by rw [waiting_of_phase hne]
    exact hdropped.startRanked env (ranking_ticketed h hget hne)

theorem KeptWith.earlySweepEnds (h : s.KeptWith []) (k : ℕ) :
    (s.earlySweepEnds k).KeptWith [] := by
  unfold ConnectionManager.earlySweepEnds
  split
  · exact h
  · rename_i ranking hat
    obtain ⟨hget, hphase⟩ := rankAt_eq hat
    refine h.dropRanking hget fun t => ?_
    unfold Ranking.waiting
    rw [hphase]

/-! ## The worker -/

theorem KeptWith.workerFinishes (h : s.KeptWith []) (env : Stage2Env) :
    (s.workerFinishes env).KeptWith [] := by
  unfold ConnectionManager.workerFinishes
  split
  · rename_i request hworker
    refine ⟨fun t => ?_, h.launches, h.ticketed, h.coreSlot, h.settles, ?_, h.superseded, ?_⟩
    · have hc := h.counted t
      rw [tally_eq, hworker] at hc
      rw [tally_eq, List.map_append, ticketCount_append, ← hc]
      change _ + ticketCount t [] + (_ + ticketCount t [request]) + _ + _ =
        _ + ticketCount t [request] + _ + _ + _
      dsimp only
      rw [ticketCount_nil]
      omega
    · rw [h.lock, hworker]
      rfl
    · intro f hf
      rcases List.mem_append.mp hf with hf | hf
      · exact h.fromWorker f hf
      · rw [List.mem_singleton.mp hf]
        simp only [stage2]
        split_ifs <;> exact nofun
  · exact h

theorem KeptWith.workerExits (h : s.KeptWith []) : s.workerExits.KeptWith [] := by
  unfold ConnectionManager.workerExits
  split
  · rename_i request hworker
    refine ⟨fun t => ?_, h.launches, h.ticketed, h.coreSlot, h.settles, rfl, h.superseded,
      h.fromWorker⟩
    have hc := h.counted t
    rw [tally_eq, hworker] at hc
    rw [tally_eq]
    exact hc
  · exact h

theorem KeptWith.deliver (h : s.KeptWith []) : s.deliver.KeptWith [] := by
  unfold ConnectionManager.deliver
  split
  · exact h
  · rename_i outcome later hposted
    have hmem (f : Finish) (hf : f = outcome ∨ f ∈ later) : f.outcome ≠ .Superseded := by
      apply h.fromWorker
      rw [hposted]
      exact List.mem_cons.mpr hf
    refine ⟨fun t => ?_, h.launches, h.ticketed, h.coreSlot, h.settles, h.lock, fun f hf => ?_,
      fun f hf => hmem f (.inr hf)⟩
    · have hc := h.counted t
      rw [tally_eq, hposted, List.map_cons, ticketCount_cons] at hc
      rw [tally_eq, List.map_append, ticketCount_append, ← hc, List.map_singleton]
      dsimp only
      omega
    · rcases List.mem_append.mp hf with hf | hf
      · exact h.superseded f hf
      · exact fun heq => absurd heq (hmem f (.inl (List.mem_singleton.mp hf)))

/-! ## Every run -/

/-- **Every step keeps every request in one place.** -/
theorem KeptWith.step (h : s.KeptWith []) (ev : Event) : (s.step ev).KeptWith [] := by
  cases ev with
  | start env profileId interactive serial => exact h.startNew env profileId interactive serial
  | stop =>
    simp only [ConnectionManager.step, stop]
    split
    · exact h
    · exact h.congr rfl rfl rfl rfl rfl rfl rfl rfl rfl rfl
  | stopTearsDown =>
    simp only [ConnectionManager.step, stopTearsDown]
    split
    · exact h.congr rfl rfl rfl rfl rfl rfl rfl rfl rfl rfl
    · exact h
  | stopFinishes => exact h.congr rfl rfl rfl rfl rfl rfl rfl rfl rfl rfl
  | setBootStart profileId interactive serial => exact h.setBootStart profileId interactive serial
  | coreStarted env profileId => exact h.onCoreStarted env profileId
  | coreGaveUp => exact h.onCoreGaveUp
  | killSwitchChanges state env => exact h.killSwitchChanges state env
  | killSwitchSettles env => exact h.killSwitchSettles env
  | quorumMet k =>
    simp only [ConnectionManager.step, quorumMet]
    split
    · exact h
    · rename_i hat
      exact h.advanceRanking hat nofun nofun
  | sweepDone k =>
    simp only [ConnectionManager.step, sweepDone]
    split
    · exact h
    · rename_i hat
      exact h.advanceRanking hat nofun nofun
  | resumesEarly k env => exact h.resumesEarly k env
  | resumes k env => exact h.resumes k env
  | earlySweepEnds k => exact h.earlySweepEnds k
  | rebuildRanked env profileId => exact (h.newRequest profileId true 0).startRanked env rfl
  | workerFinishes env => exact h.workerFinishes env
  | workerExits => exact h.workerExits
  | deliver => exact h.deliver
  | elapse ms => exact h.congr rfl rfl rfl rfl rfl rfl rfl rfl rfl rfl
  | prepareExit => exact h.congr rfl rfl rfl rfl rfl rfl rfl rfl rfl rfl

theorem kept_of_run (events : List Event) : (runAll step init events).KeptWith [] := by
  have hrun {s : ConnectionManager} (h : s.KeptWith []) : (runAll step s events).KeptWith [] := by
    induction events generalizing s with
    | nil => exact h
    | cons ev later ih => exact ih (h.step ev)
  exact hrun init_kept

/-- A superseded request has lost its slot to another request. -/
def SupersededByRequest (s : ConnectionManager) : Prop :=
  ∀ f ∈ s.finished, f.outcome = .Superseded → ∃ other, f.replacedBy = some (.request other)

/-- What a start finds while the core is down. -/
def coreDown : StartEnv where
  profileFound := true
  groupAvailable := true
  runningWithoutGuardIdentity := false
  haveCore := true
  autoselector := false
  needsRanking := false
  buildFailed := false
  geoMissing := false
  awaitingCoreStarted := false
  core_running := false
  canStartCore := true

/-- The start waits for the core, a stop by the user forgets what the core is to start, and the
core comes up for nothing. -/
def stoppedWhileWaiting : List Event :=
  [.start coreDown 5 true 1, .stop, .coreStarted ⟨[], false, coreDown⟩ (-1)]

end Throned.Engine.ConnectionManager
