import Throned.Analysis.SignInCodes

/-!
# Sign-ins in every run

An automatic answer uses the entry that the repository holds, so it keeps the codes where the
earlier ones of its profile are settled; and it is the only one to its challenge where polls
bring no challenge again that has been answered.
-/

set_option autoImplicit false

namespace Throned.Engine.SignIns

open Throned.Library Throned.OTP

variable {hash : Mac} {s : SignIns} {now : ℤ} {challenge : VpnAuthChallenge}

/-! ## One challenge -/

/-- The checks only ever load one entry. -/
theorem verdict_repo (hash : Mac) (s : SignIns) (now : ℤ) (challenge : VpnAuthChallenge) :
    (s.verdict hash now challenge).2 = s.repo ∨
      ∃ id, (s.verdict hash now challenge).2 = (s.repo.GetOtpProfile id).2 := by
  unfold verdict
  split
  · exact .inl rfl
  · split
    · exact .inl rfl
    · simp only
      split
      · exact .inl rfl
      · split
        · exact .inl rfl
        · rename_i outbound _
          split
          · exact .inl rfl
          · right
            use outbound.otpID
            split
            · rename_i hrepo
              rw [hrepo]
            · rename_i hrepo
              rw [hrepo]
              split <;> rfl

theorem answerWith_submit {outbound : VpnOutbound} {creds : VpnCredentials} {entry : Entry}
    {otpID : ℤ} {used : Entry} {code : Text} {answer : VpnAuthAnswer}
    (h : s.answerWith hash now challenge outbound creds entry = .submit otpID used code answer) :
    otpID = outbound.otpID ∧ used = entry := by
  unfold answerWith at h
  simp only at h
  split at h
  · cases h
  · split at h
    · cases h
    · split at h
      · cases h
      · split at h
        · cases h
        · split at h
          · cases h
          · cases h
            exact ⟨rfl, rfl⟩

/-- The code of an answer is that of the entry which the repository holds. -/
theorem verdict_submit {otpID : ℤ} {entry : Entry} {code : Text} {answer : VpnAuthAnswer}
    (h : (s.verdict hash now challenge).1 = .submit otpID entry code answer) :
    ∃ repo, s.repo.GetOtpProfile otpID = (some entry, repo) := by
  unfold verdict at h
  split at h
  · cases h
  · split at h
    · cases h
    · simp only at h
      split at h
      · cases h
      · split at h
        · cases h
        · split at h
          · cases h
          · split at h
            · cases h
            · rename_i entry' repo hrepo
              split at h
              · cases h
              · obtain ⟨rfl, rfl⟩ := answerWith_submit h
                exact ⟨repo, hrepo⟩

theorem past_verdict {id counter : ℤ} (h : s.repo.Past id counter) (hash : Mac) (now : ℤ)
    (challenge : VpnAuthChallenge) : (s.verdict hash now challenge).2.Past id counter := by
  obtain hsame | ⟨other, hgot⟩ := verdict_repo hash s now challenge
  · rw [hsame]
    exact h
  · rw [hgot]
    exact h.getOtpProfile other

/-- **An automatic answer keeps the codes and is the only one.** -/
theorem challengeStep_keeps (hok : ChallengeOpen hash now s challenge)
    (h : s.KeepsCodes ∧ s.AnswersOnce) :
    (challengeStep hash now s challenge).KeepsCodes ∧
      (challengeStep hash now s challenge).AnswersOnce := by
  obtain ⟨hcodes, honce⟩ := h
  have hpast {id counter : ℤ} (h : s.repo.Past id counter) := past_verdict h hash now challenge
  unfold ChallengeOpen at hok
  unfold challengeStep autoAnswer
  generalize hv : s.verdict hash now challenge = v at hok hpast
  obtain ⟨verdict, repo⟩ := v
  have hload : KeepsCodes { s with repo := repo } :=
    hcodes.frame (fun _ _ h => hpast h) rfl rfl rfl rfl
  cases verdict with
  | leave => exact ⟨hload, honce⟩
  | hold => exact ⟨hload, honce⟩
  | submit otpID entry code answer =>
    obtain ⟨hnew, hsettled⟩ := hok otpID entry code answer rfl
    obtain ⟨repo', hgot⟩ := verdict_submit (congrArg Prod.fst hv)
    constructor
    · have hout : KeepsCodes
          { s with handedOut := s.handedOut ++
              hotpUse otpID entry (.answer challenge.endpointTag challenge.id) } := by
        unfold hotpUse
        split
        · rename_i hhotp
          refine hcodes.handOut ?_ (List.pairwise_singleton _ _) ?_ ?_
          · intro v hv
            rw [List.mem_singleton.mp hv]
            exact ⟨hsettled hhotp, fun counter hpast => hpast.got hgot⟩
          · intro v hv serial hsign
            rw [List.mem_singleton.mp hv] at hsign
            cases hsign
          · intro launch _ v hv hsign
            rw [List.mem_singleton.mp hv] at hsign
            cases hsign
        · rw [List.append_nil]
          exact hcodes
      exact hout.frame (fun _ _ h => hpast h) rfl rfl rfl rfl
    · exact List.nodup_append.mpr ⟨honce, List.nodup_singleton _, fun a ha b hb hab =>
        hnew (List.mem_singleton.mp hb ▸ hab ▸ ha)⟩

/-! ## Every step -/

theorem pollHandled_keeps (hok : Ok hash s (.pollHandled now)) (h : s.KeepsCodes ∧ s.AnswersOnce) :
    (s.pollHandled hash now).KeepsCodes ∧ (s.pollHandled hash now).AnswersOnce := by
  obtain ⟨hcodes, honce⟩ := h
  unfold pollHandled
  split
  · rename_i states pending hpoll
    have hidle : KeepsCodes { s with poll := .idle } := hcodes.congr rfl rfl rfl rfl rfl
    simp only
    split
    · rename_i htimer
      have hupdated : KeepsCodes (updateEndpointStates { s with poll := .idle } states) :=
        hidle.congr rfl rfl rfl rfl rfl
      exact Throughout.invariant (I := fun s => s.KeepsCodes ∧ s.AnswersOnce)
        (fun _ _ hopen hkept => challengeStep_keeps hopen hkept)
        (hok states pending hpoll htimer) ⟨hupdated, honce⟩
    · exact ⟨hidle, honce⟩
  · exact ⟨hcodes, honce⟩

theorem KeepsCodes.step (h : s.KeepsCodes) (honce : s.AnswersOnce) {ev : Event}
    (hok : s.Ok hash ev) : (s.step hash ev).KeepsCodes := by
  cases ev with
  | buildStarted n =>
    simp only [SignIns.step, buildStarted]
    split
    · exact h.congr rfl rfl rfl rfl rfl
    · exact h
  | buildResolves n otpProfileId now =>
    simp only [SignIns.step, buildResolves]
    split
    · exact h
    · rename_i session _
      exact h.frame (fun id counter hpast =>
        OtpCodeSession.past_resolve hpast hash now session otpProfileId) rfl rfl rfl rfl
  | buildDropped n => exact h.congr rfl rfl rfl rfl rfl
  | startLaunched n => exact h.startLaunched n
  | coreAccepts => exact h.coreAccepts hok
  | coreRefuses => exact h.coreRefuses
  | startCommits fails => exact h.startCommits fails
  | testRuns n => exact h.testRuns hok
  | entryReleased otpProfileId =>
    exact h.frame (fun _ _ hpast => hpast.release otpProfileId) rfl rfl rfl rfl
  | surroundingsChange around => exact h.congr rfl rfl rfl rfl rfl
  | noteRunStarted => exact h.congr rfl rfl rfl rfl rfl
  | noteRunStopped => exact h.congr rfl rfl rfl rfl rfl
  | pollStarted =>
    simp only [SignIns.step, pollStarted]
    split
    · exact h
    · exact h.congr rfl rfl rfl rfl rfl
  | pollReplied states pending =>
    simp only [SignIns.step, pollReplied]
    split
    · exact h.congr rfl rfl rfl rfl rfl
    · exact h
  | pollHandled now => exact (pollHandled_keeps hok ⟨h, honce⟩).1
  | answerReturned answered =>
    simp only [SignIns.step, answerReturned]
    split
    · exact h.congr rfl rfl rfl rfl rfl
    · exact h

/-- Only the main thread's part of a poll answers. -/
theorem submitted_step (hash : Mac) (s : SignIns) {ev : Event}
    (hpoll : ∀ now, ev ≠ .pollHandled now) : (s.step hash ev).submitted = s.submitted := by
  cases ev with
  | pollHandled now => exact absurd rfl (hpoll now)
  | buildStarted n =>
    simp only [SignIns.step, buildStarted]
    split <;> rfl
  | buildResolves n otpProfileId now =>
    simp only [SignIns.step, buildResolves]
    split <;> rfl
  | buildDropped n => rfl
  | startLaunched n =>
    simp only [SignIns.step, startLaunched]
    split <;> rfl
  | coreAccepts =>
    simp only [SignIns.step, SignIns.coreAccepts]
    split <;> rfl
  | coreRefuses =>
    simp only [SignIns.step, SignIns.coreRefuses]
    split <;> rfl
  | startCommits fails =>
    simp only [SignIns.step, SignIns.startCommits]
    split <;> rfl
  | testRuns n =>
    simp only [SignIns.step, SignIns.testRuns]
    split <;> rfl
  | entryReleased otpProfileId => rfl
  | surroundingsChange around => rfl
  | noteRunStarted => rfl
  | noteRunStopped => rfl
  | pollStarted =>
    simp only [SignIns.step, pollStarted]
    split <;> rfl
  | pollReplied states pending =>
    simp only [SignIns.step, pollReplied]
    split <;> rfl
  | answerReturned answered =>
    simp only [SignIns.step, answerReturned]
    split <;> rfl

theorem step_keeps (s : SignIns) (ev : Event) (hok : s.Ok hash ev)
    (h : s.KeepsCodes ∧ s.AnswersOnce) :
    (s.step hash ev).KeepsCodes ∧ (s.step hash ev).AnswersOnce := by
  refine ⟨h.1.step h.2 hok, ?_⟩
  by_cases hpoll : ∃ now, ev = .pollHandled now
  · obtain ⟨now, rfl⟩ := hpoll
    exact (pollHandled_keeps hok h).2
  · unfold AnswersOnce
    rw [submitted_step hash s fun now heq => hpoll ⟨now, heq⟩]
    exact h.2

/-- The keyed hashes of the counters 0 and 1 under the key `12345`. -/
def tokenMac : Mac := fun _ _ message =>
  if message.getLastD 0 = 0 then
    [224, 25, 64, 107, 119, 18, 7, 141, 206, 231, 241, 215, 120, 228, 4, 184, 253, 132, 36, 166]
  else
    [81, 232, 180, 138, 216, 141, 130, 87, 108, 6, 28, 202, 22, 143, 7, 157, 191, 252, 152, 113]

def token : Entry :=
  ⟨['G', 'E', 'Z', 'D', 'G', 'N', 'B', 'V'], .SHA1, .HOTP, 6, 30, 0⟩

/-- One OpenVPN profile with the token, connected and polled. -/
def tokenRun : SignIns where
  repo := ⟨fun id => if id = 1 then some token else none, fun _ => none⟩
  around :=
    { started_id := 7
      running := true
      VpnEndpointProfileID := fun _ => 7
      GetProfile := fun _ => some (.openvpn 1 [] [])
      vpnCredentialOverrides := fun _ => none }
  building := fun _ => none
  starting := none
  starts := 0
  timerActive := true
  poll := .idle
  m_vpnOtpLastCode := fun _ => []
  m_vpnOtpRejects := fun _ => 0
  m_vpnChallengeAnswering := []
  inFlight := []
  submitted := []
  handedOut := []
  committed := []

def tokenChallenge : VpnAuthChallenge := ⟨['v'], ['a'], kindSecret, [], []⟩

theorem tokenRun_initial : tokenRun.Initial := ⟨fun _ => rfl, rfl, rfl, rfl, rfl, rfl⟩

/-- A start commits the code of the counter 0, and its core then asks for one more. -/
def startAndAnswer : List Event :=
  [.buildStarted 0, .buildResolves 0 1 0, .startLaunched 0, .coreAccepts, .startCommits fun _ => false,
    .pollStarted, .pollReplied [] [tokenChallenge], .pollHandled 0]

theorem tokenRun_session {serial : ℕ} {session : OtpCodeSession}
    (h : (runAll (step tokenMac) tokenRun
      [.buildStarted 0, .buildResolves 0 1 0, .startLaunched 0]).starting =
        some ⟨serial, session, false⟩) : session.hotpProfiles.entries = [⟨1, token⟩] := by
  have hsome : (runAll (step tokenMac) tokenRun
      [.buildStarted 0, .buildResolves 0 1 0, .startLaunched 0]).starting.map
        (fun launch => launch.session.hotpProfiles.entries) = some [⟨1, token⟩] := by
    decide +kernel
  rw [h] at hsome
  exact Option.some.inj hsome

/-- The second poll has asked the core before the answer reached it, and is handled behind the
reply to the answer. -/
def stalePoll : List Event :=
  [.pollStarted, .pollReplied [] [tokenChallenge], .pollHandled 0,
    .pollStarted, .pollReplied [] [tokenChallenge],
    .answerReturned (['v'], ['a'], ⟨[], [], ['7', '3', '4', '0', '5', '5'], []⟩),
    .pollHandled 0]

end Throned.Engine.SignIns
