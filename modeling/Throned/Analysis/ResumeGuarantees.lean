import Throned.Analysis.ResumeRuns

/-!
# What the crash-loop guard guarantees

A profile that dies inside its window on every resume is resumed `kStrikesToSuppress` times,
and then no more.  A file that the next boot finds too large is the exception: `save` writes
an exit reason of any length.
-/

set_option autoImplicit false

namespace Throned.Headless

open Throned.Library

namespace Watched

variable {p : Watched → Runtime.Event → Prop} {x y z : Watched} {e : Runtime.Event}
  {es : List Runtime.Event} {P : Int}

/-- How often a profile is resumed in the steps from a state. -/
def resumed (P : Int) : Watched → List Runtime.Event → ℕ
  | _, [] => 0
  | x, e :: es =>
    match x.step e with
    | none => 0
    | some y =>
      (if e = .decideResume P ∧ (x.runtime.decideResume P).2 = P then 1 else 0) + resumed P y es

end Watched

namespace Watch

/-- The profile dies inside its window. -/
def DiesIn (P : Int) (w : Watch) (e : Runtime.Event) : Prop :=
  w.profile = P ∧ w.isOpen = true ∧ (e = .strike ∨ e = .die)

instance (P : Int) (w : Watch) (e : Runtime.Event) : Decidable (w.DiesIn P e) :=
  inferInstanceAs (Decidable (_ ∧ _))

/-- How often it does in the steps from a state. -/
def deathsIn (P : Int) : Watch → List Runtime.Event → ℕ
  | _, [] => 0
  | w, e :: es => (if w.DiesIn P e then 1 else 0) + deathsIn P (w.step e) es

/-- The deaths in a row of a profile. -/
def deathsOf (P : Int) (w : Watch) : ℕ := if w.profile = P then w.deaths else 0

end Watch

/-- The profile has not survived, and no other one was decided on or armed. -/
def Undisturbed (P : Int) : Runtime.Event → Prop
  | .survived profileId => profileId ≠ P
  | .decideResume candidateId => candidateId < 0 ∨ candidateId = P
  | .arm profileId _ => profileId < 0 ∨ profileId = P
  | _ => True

/-- **What holds in every state that is reached.** -/
structure Guaranteed (p : Watched → Runtime.Event → Prop) (x : Watched) : Prop where
  /-- A profile is resumed at most `kStrikesToSuppress` times, if each resume ended in a death
  before the next one. -/
  atMost : ∀ P es y, 0 ≤ P → Watched.Run p x es y → (∀ e ∈ es, Undisturbed P e) →
    (∀ pre post, es = pre ++ .decideResume P :: post →
      x.resumed P pre ≤ x.watch.deathsIn P pre) →
    (x.resumed P es : Int) ≤ kStrikesToSuppress
  /-- After as many deaths, no later boot resumes it. -/
  suppressed : ∀ P es y, 0 ≤ P → Watched.Run p x es y → (∀ e ∈ es, Undisturbed P e) →
    kStrikesToSuppress ≤ x.watch.deathsIn P es → y.runtime.phase = .settled →
    (y.runtime.decideResume P).2 = -1
  /-- No death is more than one strike. -/
  counted : x.runtime.phase = .settled → x.runtime.guard.profile = x.watch.profile →
    x.runtime.guard.strikes = min (x.watch.deaths : Int) kStrikesToSuppress
  /-- A clean exit is none. -/
  cleanExit : ∀ code reason now y, x.runtime.phase = .settled →
    code ≠ ExitCode.CoreGaveUp → code ≠ ExitCode.Stuck →
    Watched.Run p x [.noteExit code reason now, .die, .boot, .settlePrevious] y →
    y.runtime.guard.profile = x.runtime.guard.profile ∧
      y.runtime.guard.strikes = x.runtime.guard.strikes
  /-- What was saved is what the next boot loads. -/
  reload : ∀ y, x.runtime.phase = .settled → x.runtime.disk = some x.runtime.guard.file →
    Watched.Run p x [.die, .boot] y → y.runtime.guard.Same x.runtime.guard

/-! ## The deaths in a row -/

namespace Watch

variable {w : Watch} {e : Runtime.Event} {P : Int}

theorem deathsOf_follow {profile : Int} (h : profile < 0 ∨ profile = P) :
    w.deathsOf P ≤ (w.follow profile).deathsOf P := by
  unfold follow
  split
  · exact le_rfl
  · rename_i hother
    unfold deathsOf
    rw [if_neg (by rintro rfl; exact hother (h.imp id fun hP => hP))]
    exact Nat.zero_le _

theorem deathsOf_death : w.deathsOf P + (if w.profile = P ∧ w.isOpen = true then 1 else 0) =
    w.death.deathsOf P := by
  unfold death
  by_cases hopen : w.isOpen = true
  · rw [if_pos hopen]
    unfold deathsOf close
    by_cases hP : w.profile = P
    · simp [hP, hopen]
    · simp [hP]
  · rw [if_neg hopen, if_neg (fun h => hopen h.2)]
    rfl

/-- **Every death of a profile that is left alone is counted.** -/
theorem deathsOf_step (h : Undisturbed P e) :
    w.deathsOf P + (if w.DiesIn P e then 1 else 0) ≤ (w.step e).deathsOf P := by
  have hquiet : ∀ {w' : Watch}, (e ≠ .strike ∧ e ≠ .die) → w.deathsOf P ≤ w'.deathsOf P →
      w.deathsOf P + (if w.DiesIn P e then 1 else 0) ≤ w'.deathsOf P := by
    intro w' hne hle
    rw [if_neg fun hdies => hdies.2.2.elim hne.1 hne.2]
    exact hle
  cases e with
  | strike => simpa [step, DiesIn] using (deathsOf_death (w := w) (P := P)).le
  | die => simpa [step, DiesIn] using (deathsOf_death (w := w) (P := P)).le
  | decideResume candidateId => exact hquiet ⟨(by rintro ⟨⟩), (by rintro ⟨⟩)⟩ (deathsOf_follow h)
  | arm profileId now =>
    refine hquiet ⟨(by rintro ⟨⟩), (by rintro ⟨⟩)⟩ ?_
    simp only [step]
    split
    · exact le_rfl
    · exact deathsOf_follow h
  | survived profileId =>
    refine hquiet ⟨(by rintro ⟨⟩), (by rintro ⟨⟩)⟩ ?_
    simp only [step]
    split
    · exact le_rfl
    · rename_i hsame
      have hP : w.profile ≠ P := by
        rintro rfl
        exact hsame (Or.inr h)
      unfold deathsOf
      rw [if_neg hP]
      exact Nat.zero_le _
  | noteExit code reason now =>
    refine hquiet ⟨(by rintro ⟨⟩), (by rintro ⟨⟩)⟩ ?_
    simp only [step]
    split <;> exact le_rfl
  | disarm => exact hquiet ⟨(by rintro ⟨⟩), (by rintro ⟨⟩)⟩ le_rfl
  | boot => exact hquiet ⟨(by rintro ⟨⟩), (by rintro ⟨⟩)⟩ le_rfl
  | settlePrevious => exact hquiet ⟨(by rintro ⟨⟩), (by rintro ⟨⟩)⟩ le_rfl
  | markStable => exact hquiet ⟨(by rintro ⟨⟩), (by rintro ⟨⟩)⟩ le_rfl
  | liftSuppression startedProfileId => exact hquiet ⟨(by rintro ⟨⟩), (by rintro ⟨⟩)⟩ le_rfl

end Watch

namespace Watched

variable {p : Watched → Runtime.Event → Prop} {x y z : Watched} {e : Runtime.Event}
  {es : List Runtime.Event} {P : Int}

theorem watch_step (h : x.step e = some y) : y.watch = x.watch.step e := by
  obtain ⟨s, -, rfl⟩ := Option.map_eq_some_iff.mp h
  rfl

theorem runtime_step (h : x.step e = some y) : x.runtime.step e = some y.runtime := by
  obtain ⟨s, hs, rfl⟩ := Option.map_eq_some_iff.mp h
  exact hs

theorem Run.reachable (h : Run p x es y) (hx : (resumes p).Reachable x) :
    (resumes p).Reachable y := by
  induction h with
  | nil => exact hx
  | cons hp hstep _ ih => exact ih (hx.step ⟨_, hp, hstep⟩)

theorem deathsOf_run (h : Run p x es y) (hes : ∀ e ∈ es, Undisturbed P e) :
    x.watch.deathsOf P + x.watch.deathsIn P es ≤ y.watch.deathsOf P := by
  induction h with
  | nil => exact le_rfl
  | @cons x y z e es hp hstep _ ih =>
    have hrest := ih fun e he => hes e (List.mem_cons_of_mem _ he)
    have hfirst := @Watch.deathsOf_step x.watch e P (hes e List.mem_cons_self)
    rw [watch_step hstep] at hrest
    rw [Watch.deathsIn]
    omega

theorem resumed_cons (hstep : x.step e = some y) :
    x.resumed P (e :: es) =
      (if e = .decideResume P ∧ (x.runtime.decideResume P).2 = P then 1 else 0) +
        y.resumed P es := by
  simp only [resumed, hstep]

/-! ## The decision -/

theorem settled_of_decide (h : x.step (.decideResume P) = some y) :
    x.runtime.phase = .settled := by
  have hs := runtime_step h
  unfold Runtime.step at hs
  cases hphase : x.runtime.phase with
  | settled => rfl
  | off => simp [hphase] at hs
  | loaded => simp [hphase] at hs

theorem decideResume_snd (s : Runtime) (hP : 0 ≤ P) :
    (s.decideResume P).2 =
      if P = s.guard.profile ∧ kStrikesToSuppress ≤ s.guard.strikes then -1 else P := by
  unfold Runtime.decideResume
  simp only
  rw [if_neg (not_lt.mpr hP)]
  by_cases hsame : P = s.guard.profile
  · rw [if_neg (not_not.mpr hsame)]
    by_cases hmany : kStrikesToSuppress ≤ s.guard.strikes
    · rw [if_pos hmany, if_pos ⟨hsame, hmany⟩]
    · rw [if_neg hmany, if_neg fun h => hmany h.2]
  · have hnot : ¬ (P = s.guard.profile ∧ kStrikesToSuppress ≤ s.guard.strikes) :=
      fun h => hsame h.1
    rw [if_pos hsame, if_neg hnot]

/-- **A profile is resumed as long as it has died fewer times in a row.** -/
theorem decide_of_settled (h : x.runtime.Settled x.watch) (hP : 0 ≤ P) :
    (x.runtime.decideResume P).2 =
      if kStrikesToSuppress ≤ x.watch.deathsOf P then -1 else P := by
  rw [decideResume_snd _ hP]
  congr 1
  rw [eq_iff_iff]
  unfold Watch.deathsOf
  simp only [kStrikesToSuppress]
  rcases h.counts with ⟨hprofile, hstrikes, -⟩ | ⟨hprofile, hw, hdeaths, -⟩
  · simp only [kStrikesToSuppress] at hstrikes
    split <;> omega
  · rw [hdeaths, ite_self]
    omega

theorem resumed_le (h : Run BootFits x es z) (hx : (resumes BootFits).Reachable x) (hP : 0 ≤ P)
    (hes : ∀ e ∈ es, Undisturbed P e) {k d : ℕ} (hk : k ≤ 3) (hd : d ≤ x.watch.deathsOf P)
    (hdies : ∀ pre post, es = pre ++ .decideResume P :: post →
      k + x.resumed P pre ≤ d + x.watch.deathsIn P pre) :
    k + x.resumed P es ≤ 3 := by
  induction h generalizing k d with
  | nil => exact hk
  | @cons x y z e es hp hstep _ ih =>
    have hes' : ∀ e ∈ es, Undisturbed P e := fun e he => hes e (List.mem_cons_of_mem _ he)
    have hfirst := @Watch.deathsOf_step x.watch e P (hes e List.mem_cons_self)
    rw [← watch_step hstep] at hfirst
    rw [resumed_cons hstep, ← Nat.add_assoc]
    refine ih (hx.step ⟨e, hp, hstep⟩) hes' ?_ (d := d + if x.watch.DiesIn P e then 1 else 0) ?_ ?_
    · split
      · rename_i hresumed
        obtain ⟨rfl, hreturned⟩ := hresumed
        have hsettled := (inv_of_reachable hx).settled (settled_of_decide hstep)
        have hfew : ¬ kStrikesToSuppress ≤ x.watch.deathsOf P := by
          intro hmany
          rw [decide_of_settled hsettled hP, if_pos hmany] at hreturned
          omega
        have hbefore := hdies [] es rfl
        simp only [resumed, Watch.deathsIn, kStrikesToSuppress] at hbefore hfew
        omega
      · omega
    · omega
    · intro pre post heq
      have hbefore := hdies (e :: pre) post (by rw [heq]; rfl)
      rw [resumed_cons hstep, Watch.deathsIn, ← watch_step hstep] at hbefore
      omega

/-! ## The next boot -/

theorem Run.inv_cons (h : Run p x (e :: es) z) : ∃ y, p x e ∧ x.step e = some y ∧ Run p y es z := by
  cases h with
  | cons hp hstep hrun => exact ⟨_, hp, hstep, hrun⟩

/-- The boot after a death reads the file of before. -/
theorem run_reboot (hphase : x.runtime.phase = .settled)
    (hrun : Run BootFits x (.die :: .boot :: es) z) :
    (∀ f, x.runtime.disk = some f → f.size ≤ kResumeGuardMaxBytes) ∧
      ∃ y, y.runtime.guard = .load x.runtime.disk ∧ y.runtime.phase = .loaded ∧
        Run BootFits y es z := by
  obtain ⟨dead, -, hdie, hrun⟩ := hrun.inv_cons
  obtain ⟨booted, hfits, hboot, hrun⟩ := hrun.inv_cons
  have hdie' := runtime_step hdie
  simp only [Runtime.step, hphase, Option.some.injEq] at hdie'
  have hboot' := runtime_step hboot
  rw [← hdie'] at hboot'
  simp only [Runtime.step, Option.some.injEq] at hboot'
  have hdisk : dead.runtime.disk = x.runtime.disk := by rw [← hdie']
  refine ⟨fun f hf => hfits rfl f (hdisk.trans hf), booted, ?_, ?_, hrun⟩
  · rw [← hboot']
    unfold Runtime.boot
    simp only
    split <;> rfl
  · rw [← hboot']
    unfold Runtime.boot
    simp only
    split <;> rfl

theorem reload_same (h : x.runtime.Settled x.watch)
    (hdisk : x.runtime.disk = some x.runtime.guard.file) (hrun : Run BootFits x [.die, .boot] y) :
    y.runtime.guard.Same x.runtime.guard := by
  obtain ⟨hfits, booted, hguard, -, hrun⟩ := run_reboot h.phase hrun
  cases hrun
  rw [hguard, hdisk, ResumeGuard.load_file h.bounded (hfits _ hdisk)]
  exact ⟨rfl, rfl, rfl, rfl, rfl⟩

theorem clean_exit (h : x.runtime.Settled x.watch) {code now : Int} {reason : Text}
    (hgaveUp : code ≠ ExitCode.CoreGaveUp) (hstuck : code ≠ ExitCode.Stuck)
    (hrun : Run BootFits x [.noteExit code reason now, .die, .boot, .settlePrevious] y) :
    y.runtime.guard.profile = x.runtime.guard.profile ∧
      y.runtime.guard.strikes = x.runtime.guard.strikes := by
  obtain ⟨noted, -, hnote, hrun⟩ := hrun.inv_cons
  have hnote' := runtime_step hnote
  simp only [Runtime.step, h.phase, Runtime.noteExit, if_pos (And.intro hgaveUp hstuck),
    Option.some.injEq] at hnote'
  have hphase : noted.runtime.phase = .settled := by
    rw [← hnote']
    rfl
  obtain ⟨hfits, booted, hguard, hloaded, hrun⟩ := run_reboot hphase hrun
  obtain ⟨settled, -, hsettle, hrun⟩ := hrun.inv_cons
  cases hrun
  have hsettle' := runtime_step hsettle
  simp only [Runtime.step, hloaded, Option.some.injEq] at hsettle'
  -- the record that was saved is disarmed, so the next boot strikes nothing
  have hdisk : noted.runtime.disk = some noted.runtime.guard.file := by rw [← hnote']; rfl
  have hbounded : noted.runtime.guard.Bounded := by
    rw [← hnote']
    exact ⟨h.bounded.1, h.bounded.2, (by rintro ⟨⟩), fun _ => rfl, h.bounded.5⟩
  have hprofile : noted.runtime.guard.profile = x.runtime.guard.profile := by rw [← hnote']; rfl
  have hstrikes : noted.runtime.guard.strikes = x.runtime.guard.strikes := by rw [← hnote']; rfl
  have harmed : noted.runtime.guard.armed = false := by rw [← hnote']; rfl
  rw [hdisk, ResumeGuard.load_file hbounded (hfits _ hdisk)] at hguard
  have hdisarmed : booted.runtime.guard.openBoot.armed = false := by rw [hguard]; exact harmed
  rw [← hsettle', ← hprofile, ← hstrikes]
  unfold Runtime.settlePrevious
  simp only
  rw [if_neg (by rw [hdisarmed]; exact Bool.false_ne_true), hguard]
  exact ⟨rfl, rfl⟩

end Watched

open Watched in
/-- **As long as each boot can read what was saved, the crash loop ends.** -/
theorem resumes_guaranteed {x : Watched} (h : (resumes BootFits).Reachable x) :
    Guaranteed BootFits x := by
  have hinv := inv_of_reachable h
  refine ⟨?_, ?_, ?_, ?_, ?_⟩
  · intro P es y hP hrun hes hdies
    have hle := resumed_le hrun h hP hes (Nat.zero_le 3) (Nat.zero_le _) fun pre post heq => by
      simpa using hdies pre post heq
    simp only [kStrikesToSuppress]
    omega
  · intro P es y hP hrun hes hmany hphase
    have hsettled := (inv_of_reachable (hrun.reachable h)).settled hphase
    rw [decide_of_settled hsettled hP, if_pos]
    have := deathsOf_run hrun hes
    omega
  · intro hphase hprofile
    rcases (hinv.settled hphase).counts with hc | hc
    · exact hc.2.1
    · have := hc.1
      omega
  · intro code reason now y hphase hgaveUp hstuck hrun
    exact clean_exit (hinv.settled hphase) hgaveUp hstuck hrun
  · intro y hphase hdisk hrun
    exact reload_same (hinv.settled hphase) hdisk hrun

/-! ## An exit reason that is too long -/

theorem length_le_utf8Bytes (s : Text) : s.length ≤ utf8Bytes s := by
  induction s with
  | nil => exact Nat.zero_le _
  | cons c s ih =>
    have hpos := Char.utf8Size_pos c
    simp only [utf8Bytes, List.map_cons, List.sum_cons, List.length_cons] at ih ⊢
    omega

theorem length_le_flatMap (s : Text) : s.length ≤ (s.flatMap jsonChar).length := by
  induction s with
  | nil => exact Nat.zero_le _
  | cons c s ih =>
    have hpos : 1 ≤ (jsonChar c).length := by
      unfold jsonChar
      split
      · simp
      · split
        · simp
        · split <;> simp
    rw [List.flatMap_cons, List.length_append, List.length_cons]
    omega

/-- The file has at least the bytes of the reason. -/
theorem length_reason_le {g : ResumeGuard} {exit : LastExit} (h : g.lastExit = some exit) :
    exit.reason.length ≤ g.file.size := by
  have hroot : g.root.last_exit = some exit := h
  have hexit : exit.reason.length ≤ exit.json.length := by
    have hreason := length_le_flatMap exit.reason
    unfold LastExit.json jsonString
    simp only [List.length_append]
    omega
  have hjson : exit.json.length ≤ g.root.json.length := by
    rw [StateFile.json, hroot]
    simp only [List.length_append]
    omega
  exact (hexit.trans hjson).trans (length_le_utf8Bytes _)

namespace Watched

/-- The state after a run from a program without a file. -/
def after (es : List Runtime.Event) : Option Watched :=
  es.foldlM step ⟨⟨{}, none, .off⟩, ⟨-1, 0, false⟩⟩

/-- The profile 5 is resumed, and hangs. -/
def hung : Watched :=
  ⟨⟨{ profile := 5, armed := true, armedAt := 1, bootOpen := true },
    some (ResumeGuard.file { profile := 5, armed := true, armedAt := 1, bootOpen := true }),
    .settled⟩, ⟨5, 0, true⟩⟩

theorem run_hung (p : Watched → Runtime.Event → Prop)
    (hp : ∀ x e, x.runtime.disk = none ∨ e ≠ .boot → p x e) : (resumes p).Reachable hung := by
  have hboot : (resumes p).Reachable ⟨⟨{}, none, .loaded⟩, ⟨-1, 0, false⟩⟩ :=
    (System.Reachable.init (show (resumes p).init ⟨⟨{}, none, .off⟩, ⟨-1, 0, false⟩⟩ from
      ⟨rfl, rfl⟩)).step ⟨.boot, hp _ _ (Or.inl rfl), rfl⟩
  exact ((hboot.step ⟨.settlePrevious, hp _ _ (Or.inr nofun), rfl⟩).step
    ⟨.decideResume 5, hp _ _ (Or.inr nofun), rfl⟩).step
      ⟨.arm 5 1, hp _ _ (Or.inr nofun), rfl⟩

end Watched

open Watched in
theorem resumes_guaranteed_hung : Guaranteed BootFits hung :=
  resumes_guaranteed (run_hung _ fun _ _ h => by
    rintro rfl f hf
    rcases h with h | h
    · rw [h] at hf
      cases hf
    · exact absurd rfl h)

/-- The exit with a reason of 65537 characters leaves a file that the next boot does not read,
and the strikes are gone. -/
theorem not_resumes_guaranteed :
    ¬ ∀ x, (resumes fun _ _ => True).Reachable x → Guaranteed (fun _ _ => True) x := by
  intro h
  let reason : Text := List.replicate 65537 'x'
  let noted : Watched := ⟨Watched.hung.runtime.noteExit ExitCode.Stuck reason 2, ⟨5, 0, true⟩⟩
  have hnoted : (resumes fun _ _ => True).Reachable noted :=
    (Watched.run_hung _ fun _ _ _ => trivial).step ⟨.noteExit _ reason 2, trivial, rfl⟩
  have hsize := @length_reason_le noted.runtime.guard ⟨ExitCode.Stuck, reason, 2⟩ rfl
  have hlong : kResumeGuardMaxBytes < reason.length := by
    rw [List.length_replicate]
    decide
  have hload : ResumeGuard.load noted.runtime.disk = {} :=
    if_pos (Or.inl (lt_of_lt_of_le hlong hsize))
  have hrun : Watched.Run (fun _ _ => True) noted [.die, .boot]
      ⟨Runtime.boot { noted.runtime with phase := .off }, _⟩ :=
    .cons trivial rfl (.cons trivial rfl (.nil _))
  have hsame := ((h noted hnoted).reload _ rfl rfl hrun).profile
  have hguard : (Runtime.boot { noted.runtime with phase := .off }).guard =
      .load noted.runtime.disk := by
    unfold Runtime.boot
    simp only
    split <;> rfl
  rw [hguard, hload] at hsame
  cases hsame

end Throned.Headless
