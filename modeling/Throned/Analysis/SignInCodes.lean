import Throned.Analysis.HotpAdvance
import Throned.Model.VpnAuth

/-!
# The codes of sign-ins

A code that went out is settled once the start that carried it has committed.  The table and
the memory are past every settled code, so a code that goes out while the earlier codes of its
profile are settled comes from a larger counter.
-/

set_option autoImplicit false

namespace Throned.Engine.SignIns

open Throned.Library Throned.OTP

variable {hash : Mac} {s : SignIns}

/-! ## What a step is asked for -/

/-- The start that handed the code out has committed. -/
def Settled (s : SignIns) (u : HandedOut) : Prop := ∃ serial ∈ s.committed, u.signIn = .start serial

/-- Every earlier code of a profile has been settled. -/
def AllSettled (s : SignIns) (otpID : ℤ) : Prop :=
  ∀ u ∈ s.handedOut, u.otpID = otpID → s.Settled u

/-- The codes of a config are still those of the stored counters, and no earlier code of their
profiles is unsettled. -/
def SessionCurrent (s : SignIns) (session : OtpCodeSession) : Prop :=
  ∀ id snapshot, session.hotpProfiles.lookup id = some snapshot →
    s.AllSettled id ∧ ∀ row, s.repo.rows id = some row → row.counter ≤ snapshot.counter

/-- A challenge that the checks of `autoAnswer` let through has not been answered before, and
no earlier code of its HOTP profile is unsettled. -/
def ChallengeOpen (hash : Mac) (now : ℤ) (s : SignIns) (challenge : VpnAuthChallenge) : Prop :=
  ∀ otpID entry code answer, (s.verdict hash now challenge).1 = .submit otpID entry code answer →
    (challenge.endpointTag, challenge.id) ∉ s.submitted ∧
      (entry.type = .HOTP → s.AllSettled otpID)

def challengeStep (hash : Mac) (now : ℤ) (s : SignIns) (challenge : VpnAuthChallenge) : SignIns :=
  (s.autoAnswer hash now challenge).2

/-- What a step must meet: at the three places where codes go out. -/
def Ok (hash : Mac) (s : SignIns) : Event → Prop
  | .coreAccepts => ∀ serial session, s.starting = some ⟨serial, session, false⟩ →
      s.SessionCurrent session
  | .testRuns n => ∀ session, s.building n = some session → s.SessionCurrent session
  | .pollHandled now => ∀ states pending, s.poll = .replied states pending → s.timerActive →
      Throughout (challengeStep hash now) (ChallengeOpen hash now)
        (SignIns.updateEndpointStates { s with poll := .idle } states) pending
  | _ => True

/-! ## The invariant -/

/-- The start that holds the lock, and what it has handed out. -/
structure LaunchKept (s : SignIns) (launch : Launch) : Prop where
  serial : launch.serial < s.starts
  uncommitted : launch.serial ∉ s.committed
  uses : ∀ u ∈ s.handedOut, u.signIn = .start launch.serial → launch.accepted = true ∧
    ∃ snapshot, launch.session.hotpProfiles.lookup u.otpID = some snapshot ∧
      u.counter = snapshot.counter

/-- The codes that went out, against the starts and the repository. -/
structure KeepsCodes (s : SignIns) : Prop where
  past : ∀ u ∈ s.handedOut, s.Settled u → s.repo.Past u.otpID u.counter
  serials : ∀ u ∈ s.handedOut, ∀ serial, u.signIn = .start serial → serial < s.starts
  committed : ∀ serial ∈ s.committed, serial < s.starts
  launch : ∀ launch, s.starting = some launch → s.LaunchKept launch
  once : s.CodesOnce

theorem Initial.keepsCodes (h : s.Initial) : s.KeepsCodes where
  past u hu := by
    rw [h.handedOut] at hu
    cases hu
  serials u hu := by
    rw [h.handedOut] at hu
    cases hu
  committed serial hs := by
    rw [h.committed] at hs
    cases hs
  launch launch hl := by
    rw [h.starting] at hl
    cases hl
  once := by
    unfold CodesOnce
    rw [h.handedOut]
    exact .nil

/-- A step that hands out nothing and leaves the starts alone, where the repository keeps what
is past. -/
theorem KeepsCodes.frame (h : s.KeepsCodes) {t : SignIns}
    (hrepo : ∀ id counter, s.repo.Past id counter → t.repo.Past id counter)
    (hout : t.handedOut = s.handedOut) (hcommitted : t.committed = s.committed)
    (hstarts : t.starts = s.starts) (hstarting : t.starting = s.starting) : t.KeepsCodes := by
  constructor
  · intro u hu hsettled
    unfold Settled at hsettled
    rw [hcommitted] at hsettled
    rw [hout] at hu
    exact hrepo _ _ (h.past u hu hsettled)
  · rw [hout, hstarts]
    exact h.serials
  · rw [hcommitted, hstarts]
    exact h.committed
  · intro launch hl
    rw [hstarting] at hl
    obtain ⟨hserial, huncommitted, huses⟩ := h.launch launch hl
    refine ⟨?_, ?_, ?_⟩
    · rw [hstarts]
      exact hserial
    · rw [hcommitted]
      exact huncommitted
    · rw [hout]
      exact huses
  · unfold CodesOnce
    rw [hout]
    exact h.once

/-- New codes of which all earlier ones are settled, and whose counters are not behind. -/
theorem KeepsCodes.handOut (h : s.KeepsCodes) {new : List HandedOut}
    (hnew : ∀ v ∈ new, s.AllSettled v.otpID ∧
      ∀ counter, s.repo.Past v.otpID counter → counter < v.counter)
    (hdistinct : new.Pairwise fun u v => u.otpID ≠ v.otpID)
    (hserials : ∀ v ∈ new, ∀ serial, v.signIn = .start serial →
      serial < s.starts ∧ serial ∉ s.committed)
    (huses : ∀ launch, s.starting = some launch → ∀ v ∈ new, v.signIn = .start launch.serial →
      launch.accepted = true ∧ ∃ snapshot,
        launch.session.hotpProfiles.lookup v.otpID = some snapshot ∧
          v.counter = snapshot.counter) :
    KeepsCodes { s with handedOut := s.handedOut ++ new } := by
  constructor
  · intro u hu hsettled
    rcases List.mem_append.mp hu with hu | hu
    · exact h.past u hu hsettled
    · obtain ⟨serial, hmem, hsign⟩ := hsettled
      exact absurd hmem (hserials u hu serial hsign).2
  · intro u hu serial hsign
    rcases List.mem_append.mp hu with hu | hu
    · exact h.serials u hu serial hsign
    · exact (hserials u hu serial hsign).1
  · exact h.committed
  · intro launch hl
    obtain ⟨hserial, huncommitted, hold⟩ := h.launch launch hl
    refine ⟨hserial, huncommitted, fun u hu hsign => ?_⟩
    rcases List.mem_append.mp hu with hu | hu
    · exact hold u hu hsign
    · exact huses launch hl u hu hsign
  · apply List.pairwise_append.mpr
    refine ⟨h.once, hdistinct.imp fun hne heq => absurd heq hne, fun u hu v hv heq => ?_⟩
    obtain ⟨hsettled, hbehind⟩ := hnew v hv
    apply hbehind
    rw [← heq]
    exact h.past u hu (hsettled u hu heq)

/-! ## A config -/

theorem mem_sessionUses {session : OtpCodeSession} {signIn : SignInBy} {u : HandedOut} :
    u ∈ sessionUses session signIn ↔ ∃ snapshot,
      session.hotpProfiles.lookup u.otpID = some snapshot ∧ u.counter = snapshot.counter ∧
        u.signIn = signIn := by
  unfold sessionUses
  rw [List.mem_map]
  constructor
  · rintro ⟨e, he, rfl⟩
    exact ⟨e.2, AList.mem_lookup_iff.mpr he, rfl, rfl⟩
  · rintro ⟨snapshot, hlookup, hcounter, hsign⟩
    refine ⟨⟨u.otpID, snapshot⟩, AList.mem_lookup_iff.mp hlookup, ?_⟩
    cases u
    cases hcounter
    cases hsign
    rfl

theorem sessionUses_distinct (session : OtpCodeSession) (signIn : SignInBy) :
    (sessionUses session signIn).Pairwise fun u v => u.otpID ≠ v.otpID := by
  unfold sessionUses
  rw [List.pairwise_map]
  exact List.nodupKeys_iff_pairwise.mp session.hotpProfiles.nodupKeys

/-- The codes of a current config are of no counter that is past. -/
theorem SessionCurrent.new {session : OtpCodeSession} (h : s.SessionCurrent session)
    {signIn : SignInBy} {v : HandedOut} (hv : v ∈ sessionUses session signIn) :
    s.AllSettled v.otpID ∧ ∀ counter, s.repo.Past v.otpID counter → counter < v.counter := by
  obtain ⟨snapshot, hlookup, hcounter, -⟩ := mem_sessionUses.mp hv
  obtain ⟨hsettled, hrow⟩ := h v.otpID snapshot hlookup
  refine ⟨hsettled, fun counter hpast => ?_⟩
  obtain ⟨row, hmem, hlt⟩ := hpast.row
  rw [hcounter]
  exact hlt.trans_le (hrow row hmem)

/-- A step that leaves the codes, the starts and the repository as they are. -/
theorem KeepsCodes.congr (h : s.KeepsCodes) {t : SignIns} (hrepo : t.repo = s.repo)
    (hout : t.handedOut = s.handedOut) (hcommitted : t.committed = s.committed)
    (hstarts : t.starts = s.starts) (hstarting : t.starting = s.starting) : t.KeepsCodes :=
  h.frame (fun id counter hpast => by rw [hrepo]; exact hpast) hout hcommitted hstarts hstarting

theorem KeepsCodes.testRuns (h : s.KeepsCodes) {n : ℕ}
    (hok : ∀ session, s.building n = some session → s.SessionCurrent session) :
    (s.testRuns n).KeepsCodes := by
  unfold SignIns.testRuns
  split
  · exact h
  · rename_i session hbuilding
    have hout : KeepsCodes { s with handedOut := s.handedOut ++ sessionUses session .test } := by
      refine h.handOut (fun v hv => (hok session hbuilding).new hv)
        (sessionUses_distinct session .test) ?_ ?_
      · intro v hv serial hsign
        obtain ⟨-, -, -, htest⟩ := mem_sessionUses.mp hv
        exact absurd (hsign.symm.trans htest) nofun
      · intro launch _ v hv hsign
        obtain ⟨-, -, -, htest⟩ := mem_sessionUses.mp hv
        exact absurd (hsign.symm.trans htest) nofun
    exact hout.congr rfl rfl rfl rfl rfl

theorem KeepsCodes.coreAccepts (h : s.KeepsCodes)
    (hok : ∀ serial session, s.starting = some ⟨serial, session, false⟩ →
      s.SessionCurrent session) : s.coreAccepts.KeepsCodes := by
  unfold SignIns.coreAccepts
  split
  · rename_i serial session hstarting
    obtain ⟨hserial, huncommitted, huses⟩ := h.launch _ hstarting
    -- Nothing has gone out under the serial of a start that was not accepted.
    have hmarked : KeepsCodes { s with starting := some ⟨serial, session, true⟩ } := by
      refine ⟨h.past, h.serials, h.committed, fun launch hl => ?_, h.once⟩
      cases hl
      exact ⟨hserial, huncommitted, fun u hu hsign => absurd (huses u hu hsign).1 nofun⟩
    refine hmarked.handOut (fun v hv => (hok serial session hstarting).new hv)
      (sessionUses_distinct session _) ?_ ?_
    · intro v hv n hsign
      obtain ⟨-, -, -, hstart⟩ := mem_sessionUses.mp hv
      cases hsign.symm.trans hstart
      exact ⟨hserial, huncommitted⟩
    · intro launch hl v hv _
      cases hl
      obtain ⟨snapshot, hlookup, hcounter, -⟩ := mem_sessionUses.mp hv
      exact ⟨rfl, snapshot, hlookup, hcounter⟩
  · exact h

theorem KeepsCodes.coreRefuses (h : s.KeepsCodes) : s.coreRefuses.KeepsCodes := by
  unfold SignIns.coreRefuses
  split
  · exact ⟨h.past, h.serials, h.committed, nofun, h.once⟩
  · exact h

/-- **A commit puts the codes of its start behind the table and the memory.** -/
theorem KeepsCodes.startCommits (h : s.KeepsCodes) (fails : OtpProfilesRepo.Statement → Bool) :
    (s.startCommits fails).KeepsCodes := by
  unfold SignIns.startCommits
  split
  · rename_i serial session hstarting
    obtain ⟨hserial, -, huses⟩ := h.launch _ hstarting
    have hmoved (u : HandedOut) (hpast : s.repo.Past u.otpID u.counter) :=
      OtpCodeSession.past_commit hpast fails session
    refine ⟨fun u hu hsettled => ?_, h.serials, ?_, nofun, h.once⟩
    · obtain ⟨n, hn, hsign⟩ := hsettled
      simp only at hn
      split at hn
      · rename_i hnoerror
        rcases List.mem_append.mp hn with hn | hn
        · exact hmoved u (h.past u hu ⟨n, hn, hsign⟩)
        · rw [List.mem_singleton.mp hn] at hsign
          obtain ⟨-, snapshot, hlookup, hcounter⟩ := huses u hu hsign
          rw [hcounter]
          exact OtpCodeSession.commit_past hnoerror hlookup
      · exact hmoved u (h.past u hu ⟨n, hn, hsign⟩)
    · intro n hn
      simp only at hn
      split at hn
      · rcases List.mem_append.mp hn with hn | hn
        · exact h.committed n hn
        · rw [List.mem_singleton.mp hn]
          exact hserial
      · exact h.committed n hn
  · exact h

theorem KeepsCodes.startLaunched (h : s.KeepsCodes) (n : ℕ) : (s.startLaunched n).KeepsCodes := by
  unfold SignIns.startLaunched
  split
  · refine ⟨h.past, fun u hu serial hsign => ?_, fun serial hs => ?_, fun launch hl => ?_, h.once⟩
    · exact (h.serials u hu serial hsign).trans (Nat.lt_succ_self _)
    · exact (h.committed serial hs).trans (Nat.lt_succ_self _)
    · cases hl
      refine ⟨Nat.lt_succ_self _, fun hs => absurd (h.committed _ hs) (Nat.lt_irrefl _), ?_⟩
      intro u hu hsign
      exact absurd (h.serials u hu _ hsign) (Nat.lt_irrefl _)
  · exact h.congr rfl rfl rfl rfl rfl

end Throned.Engine.SignIns
