import Throned.Analysis.SpeedMeters

/-!
# The bytes a speed test is credited with

A credit is right where the baseline under the tag is the meter's own, or where the meter has
shown nothing and the counter looks like a restart.  Those steps, and no others, keep the books
equal to what the probes have reported.
-/

set_option autoImplicit false

namespace Throned.Engine.Tests

open Throned.Library

namespace SpeedTests

variable {s s₀ : SpeedTests} {a : Audit}

/-! ## When a credit is right -/

/-- A counter that moves on has the meter's own baseline, or starts with the meter; one that does
not move on adds nothing. -/
def Fits (base seen cur : ℤ) : Prop :=
  if seen ≤ cur then if base ≤ cur then base = seen else seen = 0
  else if base ≤ cur then base = cur else cur = 0

instance (base seen cur : ℤ) : Decidable (Fits base seen cur) := by
  unfold Fits
  infer_instance

theorem creditOf_eq_iff {base seen cur : ℤ} :
    creditOf base cur = cur ⊔ seen - seen ↔ Fits base seen cur := by
  unfold creditOf Fits
  split_ifs with hbase hseen hseen
  · rw [sup_eq_left.mpr hseen]
    omega
  · rw [sup_eq_right.mpr (by omega)]
    omega
  · rw [sup_eq_left.mpr hseen]
    omega
  · rw [sup_eq_right.mpr (by omega)]
    omega

/-- A credit to a meter adds what the meter has not shown. -/
def CreditFits (s : SpeedTests) (a : Audit) (m : Meter) (cur : Bytes) : Prop :=
  let base := s.credited m.2.1
  let seen := a.shown.amount m
  if m.2.1 = [] ∨ s.disable_traffic_stats = true then cur ≤ seen
  else Fits base.1 seen.1 cur.1 ∧ Fits base.2 seen.2 cur.2

instance (s : SpeedTests) (a : Audit) (m : Meter) (cur : Bytes) :
    Decidable (s.CreditFits a m cur) := by
  unfold CreditFits
  infer_instance

/-- A probe ends with this step. -/
def endsProbe (s : SpeedTests) : Event → Bool
  | .fail =>
    match s.worker with
    | .probing _ _ => true
    | _ => false
  | .creditResult =>
    match s.worker with
    | .answered _ [] _ => true
    | _ => false
  | _ => false

/-- What a step must meet: the credit fits, and what a probe has shown its answer reports. -/
def Sound (x : SpeedTests × Audit) (ev : Event) : Prop :=
  (∀ call ∈ x.1.creditCall ev,
    x.1.CreditFits x.2 call.1 call.2 ∧
      (call.1 ∈ x.2.reported.keys ∨ call.1.1 = x.1.sessionGen ∧ x.1.worker.probes = true)) ∧
    (x.1.endsProbe ev = true →
      ∀ m ∈ x.2.shown.keys, m.1 = x.1.sessionGen → m ∈ x.2.reported.keys)

instance (x : SpeedTests × Audit) (ev : Event) : Decidable (Sound x ev) := by
  unfold Sound
  infer_instance

/-! ## The books -/

/-- The books have grown by the amounts of a ledger. -/
structure Credited (s₀ : SpeedTests) (ledger : Ledger Meter Bytes) (s : SpeedTests) : Prop where
  config : ∀ profile, s.config.amount profile =
    s₀.config.amount profile + ledger.total fun m => m.2.2 = profile
  traffic : ∀ profile, s.traffic.amount profile =
    s₀.traffic.amount profile + ledger.total fun m => m.2.2 = profile
  app : (s.app.total fun _ => true) = (s₀.app.total fun _ => true) + ledger.total fun _ => true

/-- Every meter has its final answer, except those of the probe under way. -/
def Reported (s : SpeedTests) (a : Audit) : Prop :=
  ∀ m ∈ a.shown.keys, m ∈ a.reported.keys ∨ m.1 = s.sessionGen ∧ s.worker.probes = true

/-- The books are what the probes have shown, and what is shown is reported. -/
structure Exact (s₀ : SpeedTests) (x : SpeedTests × Audit) : Prop where
  credited : Credited s₀ x.2.shown x.1
  reported : x.1.Reported x.2

/-- Between two probes the books are what the final answers reported. -/
theorem Exact.reported_total {x : SpeedTests × Audit} (h : Exact s₀ x) (hx : x.1.Counting x.2)
    (hprobes : x.1.worker.probes = false) : Credited s₀ x.2.reported x.1 := by
  have hkeys : ∀ m, m ∈ x.2.shown.keys ↔ m ∈ x.2.reported.keys := by
    refine fun m => ⟨fun hm => ?_, hx.shown m⟩
    obtain hm | ⟨-, hprobe⟩ := h.reported m hm
    · exact hm
    · rw [hprobes] at hprobe
      cases hprobe
  have htotal : ∀ p, x.2.shown.total p = x.2.reported.total p :=
    Ledger.total_congr hkeys fun m hm => hx.settled m ((hkeys m).mp hm)
  exact
    { config := fun profile => htotal _ ▸ h.credited.config profile
      traffic := fun profile => htotal _ ▸ h.credited.traffic profile
      app := htotal _ ▸ h.credited.app }

/-- What `creditTraffic` adds. -/
def added (s : SpeedTests) (tag : Text) (cur : Bytes) : Bytes :=
  if tag = [] ∨ s.disable_traffic_stats = true then 0
  else (creditOf (s.credited tag).1 cur.1, creditOf (s.credited tag).2 cur.2)

theorem creditOf_nonneg {base cur : ℤ} (h : 0 ≤ cur) : 0 ≤ creditOf base cur := by
  unfold creditOf
  split <;> omega

/-- The three books grow by the same bytes. -/
theorem creditTraffic_books (s : SpeedTests) (profile : ℤ) (tag : Text) {cur : Bytes}
    (hcur : 0 ≤ cur) :
    (∀ other, (s.creditTraffic profile tag cur).config.amount other =
        s.config.amount other + if profile = other then s.added tag cur else 0) ∧
      (∀ other, (s.creditTraffic profile tag cur).traffic.amount other =
        s.traffic.amount other + if profile = other then s.added tag cur else 0) ∧
      ((s.creditTraffic profile tag cur).app.total fun _ => true) =
        (s.app.total fun _ => true) + s.added tag cur := by
  dsimp only [creditTraffic, added]
  by_cases htag : tag = []
  · simp only [htag, true_or, if_true, ite_self, add_zero, implies_true, and_self]
  by_cases hdisabled : s.disable_traffic_stats = true
  · simp only [htag, hdisabled, or_true, if_true, ite_self, add_zero, implies_true,
      and_self]
  rw [if_neg htag, if_neg hdisabled, if_neg (not_or.mpr ⟨htag, hdisabled⟩)]
  split
  · -- Nothing has moved.
    rename_i hnone
    have hzero : (creditOf (s.credited tag).1 cur.1, creditOf (s.credited tag).2 cur.2) =
        (0 : Bytes) :=
      Prod.ext (le_antisymm hnone.1 (creditOf_nonneg hcur.1))
        (le_antisymm hnone.2 (creditOf_nonneg hcur.2))
    rw [hzero]
    simp only [ite_self, add_zero, implies_true, and_self]
  · refine ⟨fun other => Ledger.amount_add .., fun other => Ledger.amount_add .., ?_⟩
    dsimp only
    rw [Ledger.total_add, if_pos rfl]

/-- A credit fits just when it adds what the meter has not shown. -/
theorem added_eq_iff {m : Meter} {cur : Bytes} :
    s.added m.2.1 cur = cur ⊔ a.shown.amount m - a.shown.amount m ↔ s.CreditFits a m cur := by
  unfold added CreditFits
  split
  · rw [eq_comm, sub_eq_zero, sup_eq_right]
  · rw [Prod.ext_iff]
    exact and_congr creditOf_eq_iff creditOf_eq_iff

/-- Whoever makes a call, it credits the profile of its meter under its tag. -/
theorem Credited.credit_iff (h : Credited s₀ a.shown s) {m : Meter} {cur : Bytes}
    (hcur : 0 ≤ cur) :
    Credited s₀ (a.shown.add m (cur ⊔ a.shown.amount m - a.shown.amount m))
        (s.creditTraffic m.2.2 m.2.1 cur) ↔ s.CreditFits a m cur := by
  obtain ⟨hconfig, htraffic, happ⟩ := s.creditTraffic_books m.2.2 m.2.1 hcur
  rw [← added_eq_iff]
  constructor
  · intro hnew
    have hnow := hnew.config m.2.2
    rw [hconfig, if_pos rfl, h.config, Ledger.total_add, if_pos (decide_eq_true rfl),
      add_assoc] at hnow
    exact add_left_cancel (add_left_cancel hnow)
  · intro heq
    exact
      { config := fun profile => by
          rw [hconfig, h.config, Ledger.total_add, heq, add_assoc]
          simp only [decide_eq_true_eq]
        traffic := fun profile => by
          rw [htraffic, h.traffic, Ledger.total_add, heq, add_assoc]
          simp only [decide_eq_true_eq]
        app := by rw [happ, h.app, Ledger.total_add, heq, add_assoc, if_pos rfl] }

/-! ## The steps -/

/-- A step that credits nothing leaves the books. -/
theorem step_books {ev : Event} (h : s.creditCall ev = none) :
    (s.step ev).config = s.config ∧ (s.step ev).traffic = s.traffic ∧ (s.step ev).app = s.app := by
  cases ev with
  | runSpeedTests items testCurrent =>
    dsimp only [step, runSpeedTests]
    split <;> exact ⟨rfl, rfl, rfl⟩
  | clearCredits =>
    dsimp only [step, clearCredits]
    split <;> exact ⟨rfl, rfl, rfl⟩
  | startProbe =>
    dsimp only [step, startProbe]
    split
    · split <;> exact ⟨rfl, rfl, rfl⟩
    · exact ⟨rfl, rfl, rfl⟩
  | moveBytes tag up down =>
    dsimp only [step, moveBytes]
    split <;> exact ⟨rfl, rfl, rfl⟩
  | answer tags =>
    dsimp only [step, answer]
    split
    · split <;> exact ⟨rfl, rfl, rfl⟩
    · exact ⟨rfl, rfl, rfl⟩
  | fail =>
    dsimp only [step, fail]
    split <;> exact ⟨rfl, rfl, rfl⟩
  | creditResult =>
    dsimp only [step]
    cases s.creditResult_cases with
    | credit hw hprofile hcall hstep =>
      rw [hcall] at h
      cases h
    | skip hw hcall hstep | last hw hcall hstep | none hcall hstep =>
      rw [hstep]
      exact ⟨rfl, rfl, rfl⟩
  | endSession =>
    dsimp only [step, endSession]
    split <;> exact ⟨rfl, rfl, rfl⟩
  | poll k tag =>
    dsimp only [step, poll]
    split
    · split <;> exact ⟨rfl, rfl, rfl⟩
    · exact ⟨rfl, rfl, rfl⟩
  | checkTick k =>
    dsimp only [step, checkTick]
    split
    · split
      · split
        · exact ⟨rfl, rfl, rfl⟩
        · split <;> exact ⟨rfl, rfl, rfl⟩
      · exact ⟨rfl, rfl, rfl⟩
    · exact ⟨rfl, rfl, rfl⟩
  | creditTick k =>
    dsimp only [step]
    cases s.creditTick_cases k with
    | credit hp htick hcall hstep =>
      rw [hcall] at h
      cases h
    | none hcall hstep =>
      rw [hstep]
      exact ⟨rfl, rfl, rfl⟩
  | flushTrafficCredits | stop | profileRuns running | settings disabled countryOnly =>
    exact ⟨rfl, rfl, rfl⟩

/-- A step that calls `creditTraffic`, in a state that looks the same to it. -/
structure CallStep (s : SpeedTests) (ev : Event) (m : Meter) (cur : Bytes) (t : SpeedTests) :
    Prop where
  step : s.step ev = t.creditTraffic m.2.2 m.2.1 cur
  config : t.config = s.config
  traffic : t.traffic = s.traffic
  app : t.app = s.app
  credited : t.credited = s.credited
  disabled : t.disable_traffic_stats = s.disable_traffic_stats
  sessionGen : t.sessionGen = s.sessionGen
  probes : t.worker.probes = s.worker.probes
  ends : s.endsProbe ev = false
  result : ev = .creditResult → m.1 = s.sessionGen ∧ s.worker.probes = true

theorem call_step {ev : Event} {m : Meter} {cur : Bytes} (h : s.creditCall ev = some (m, cur)) :
    ∃ t, s.CallStep ev m cur t := by
  cases ev with
  | creditTick k =>
    cases s.creditTick_cases k with
    | credit hp htick hcall hstep =>
      obtain ⟨rfl, rfl⟩ : _ = m ∧ _ = cur := by simpa using hcall.symm.trans h
      exact ⟨_, hstep, rfl, rfl, rfl, rfl, rfl, rfl, rfl, rfl, fun heq => nomatch heq⟩
    | none hcall hstep =>
      rw [hcall] at h
      cases h
  | creditResult =>
    cases s.creditResult_cases with
    | credit hw hprofile hcall hstep =>
      obtain ⟨rfl, rfl⟩ : _ = m ∧ _ = cur := by simpa using hcall.symm.trans h
      have hprobes : s.worker.probes = true := by rw [hw]; rfl
      exact ⟨_, hstep, rfl, rfl, rfl, rfl, rfl, rfl, hprobes.symm, by simp only [endsProbe, hw],
        fun _ => ⟨rfl, hprobes⟩⟩
    | skip hw hcall hstep | last hw hcall hstep | none hcall hstep =>
      rw [hcall] at h
      cases h
  | runSpeedTests | clearCredits | startProbe | moveBytes | answer | fail | endSession | poll
  | checkTick | flushTrafficCredits | stop | profileRuns | settings => cases h

theorem Counting.call_nonneg (hs : s.Counting a) {ev : Event} {m : Meter} {cur : Bytes}
    (h : s.creditCall ev = some (m, cur)) : 0 ≤ cur := by
  cases ev with
  | creditTick k =>
    cases s.creditTick_cases k with
    | credit hp htick hcall hstep =>
      obtain ⟨rfl, rfl⟩ : _ = m ∧ _ = cur := by simpa using hcall.symm.trans h
      exact hs.carried _ (List.mem_of_getElem? hp) _ _ (.inr ⟨_, htick⟩)
    | none hcall hstep =>
      rw [hcall] at h
      cases h
  | creditResult =>
    cases s.creditResult_cases with
    | credit hw hprofile hcall hstep =>
      obtain ⟨rfl, rfl⟩ : _ = m ∧ _ = cur := by simpa using hcall.symm.trans h
      exact (hs.nonneg _).trans (hs.counted _ _ _ hw _ List.mem_cons_self).ge
    | skip hw hcall hstep | last hw hcall hstep | none hcall hstep =>
      rw [hcall] at h
      cases h
  | runSpeedTests | clearCredits | startProbe | moveBytes | answer | fail | endSession | poll
  | checkTick | flushTrafficCredits | stop | profileRuns | settings => cases h

/-- A probe goes on until a step ends it. -/
theorem step_probes {ev : Event} (h : s.worker.probes = true) (hends : s.endsProbe ev = false) :
    (s.step ev).worker.probes = true ∧ (s.step ev).sessionGen = s.sessionGen := by
  cases ev with
  | runSpeedTests items testCurrent =>
    have hbusy : s.worker ≠ .idle := by
      rintro heq
      rw [heq] at h
      cases h
    dsimp only [step, runSpeedTests]
    rw [if_pos (.inl hbusy)]
    exact ⟨h, rfl⟩
  | clearCredits =>
    dsimp only [step, clearCredits]
    split
    · rename_i hw
      rw [hw] at h
      cases h
    · exact ⟨h, rfl⟩
  | startProbe =>
    dsimp only [step, startProbe]
    split
    · rename_i hw
      rw [hw] at h
      cases h
    · exact ⟨h, rfl⟩
  | moveBytes tag up down =>
    dsimp only [step, moveBytes]
    split <;> exact ⟨h, rfl⟩
  | answer tags =>
    dsimp only [step, answer]
    split
    · split
      · exact ⟨rfl, rfl⟩
      · exact ⟨h, rfl⟩
    · exact ⟨h, rfl⟩
  | fail =>
    dsimp only [step, fail]
    split
    · rename_i hw
      simp only [endsProbe, hw, reduceCtorEq] at hends
    · exact ⟨h, rfl⟩
  | creditResult =>
    dsimp only [step]
    cases s.creditResult_cases with
    | credit hw hprofile hcall hstep =>
      rw [hstep, creditTraffic_worker, creditTraffic_sessionGen]
      exact ⟨rfl, rfl⟩
    | skip hw hcall hstep =>
      rw [hstep]
      exact ⟨rfl, rfl⟩
    | last hw hcall hstep => simp only [endsProbe, hw, reduceCtorEq] at hends
    | none hcall hstep =>
      rw [hstep]
      exact ⟨h, rfl⟩
  | endSession =>
    dsimp only [step, endSession]
    split
    · rename_i hw
      rw [hw] at h
      cases h
    · exact ⟨h, rfl⟩
  | poll k tag =>
    dsimp only [step, poll]
    split
    · split <;> exact ⟨h, rfl⟩
    · exact ⟨h, rfl⟩
  | checkTick k =>
    dsimp only [step, checkTick]
    split
    · split
      · split
        · exact ⟨h, rfl⟩
        · split <;> exact ⟨h, rfl⟩
      · exact ⟨h, rfl⟩
    · exact ⟨h, rfl⟩
  | creditTick k =>
    dsimp only [step]
    cases s.creditTick_cases k with
    | credit hp htick hcall hstep =>
      rw [hstep, creditTraffic_worker, creditTraffic_sessionGen]
      exact ⟨h, rfl⟩
    | none hcall hstep =>
      rw [hstep]
      exact ⟨h, rfl⟩
  | flushTrafficCredits | stop | profileRuns running | settings disabled countryOnly =>
    exact ⟨h, rfl⟩

theorem step_of_endsProbe {ev : Event} (h : s.endsProbe ev = true) :
    (s.step ev).worker.probes = false := by
  cases ev with
  | fail =>
    dsimp only [step, fail]
    split
    · rfl
    · rename_i hw
      dsimp only [endsProbe] at h
      split at h
      · exact absurd ‹_› (hw _ _)
      · cases h
  | creditResult =>
    dsimp only [endsProbe] at h
    split at h
    · rename_i hw
      simp only [step, creditResult, hw]
      rfl
    · cases h
  | runSpeedTests | clearCredits | startProbe | moveBytes | answer | endSession | poll
  | checkTick | creditTick | flushTrafficCredits | stop | profileRuns | settings => cases h

/-- A credited meter is one the answer reports or may still report. -/
theorem Reported.call_iff (h : s.Reported a) {ev : Event} {m : Meter} {cur : Bytes}
    {t : SpeedTests} (ht : s.CallStep ev m cur t) :
    (s.step ev).Reported
        { shown := a.shown.add m (cur ⊔ a.shown.amount m - a.shown.amount m)
          reported := if ev = .creditResult then a.reported.add m cur else a.reported } ↔
      m ∈ a.reported.keys ∨ m.1 = s.sessionGen ∧ s.worker.probes = true := by
  have hgen : (s.step ev).sessionGen = s.sessionGen := by
    rw [ht.step, creditTraffic_sessionGen, ht.sessionGen]
  have hprobes : (s.step ev).worker.probes = s.worker.probes := by
    rw [ht.step, creditTraffic_worker, ht.probes]
  unfold Reported
  rw [hgen, hprobes]
  constructor
  · intro hnew
    by_cases hresult : ev = .creditResult
    · exact .inr (ht.result hresult)
    · have hm := hnew m (Ledger.mem_keys_add.mpr (.inr rfl))
      rwa [if_neg hresult] at hm
  · intro hm m' hm'
    have hm' : m' ∈ a.reported.keys ∨ m'.1 = s.sessionGen ∧ s.worker.probes = true := by
      obtain hold | rfl := Ledger.mem_keys_add.mp hm'
      · exact h m' hold
      · exact hm
    refine hm'.imp_left fun hreported => ?_
    dsimp only
    split
    · exact Ledger.mem_keys_add.mpr (.inl hreported)
    · exact hreported

/-- A step that credits nothing. -/
theorem Reported.quiet_iff (h : s.Reported a) (ev : Event) :
    (s.step ev).Reported a ↔ (s.endsProbe ev = true →
      ∀ m ∈ a.shown.keys, m.1 = s.sessionGen → m ∈ a.reported.keys) := by
  constructor
  · intro hnew hends m hm _
    obtain hm | ⟨-, hprobes⟩ := hnew m hm
    · exact hm
    · rw [step_of_endsProbe hends] at hprobes
      cases hprobes
  · intro hall m hm
    obtain hm' | ⟨hgen, hprobes⟩ := h m hm
    · exact .inl hm'
    · cases hends : s.endsProbe ev with
      | true => exact .inl (hall hends m hm hgen)
      | false =>
        obtain ⟨hprobes', hgen'⟩ := step_probes hprobes hends
        exact .inr ⟨hgen.trans hgen'.symm, hprobes'⟩

/-- **The sound steps are those that keep the books exact.** -/
theorem Exact.step_iff {x : SpeedTests × Audit} (h : Exact s₀ x) (hx : x.1.Counting x.2)
    (ev : Event) : Exact s₀ (auditedStep x ev) ↔ Sound x ev := by
  obtain ⟨s, a⟩ := x
  unfold auditedStep Sound
  dsimp only at hx ⊢
  cases hcall : s.creditCall ev with
  | none =>
    rw [observe_of_none hcall]
    obtain ⟨hconfig, htraffic, happ⟩ := step_books hcall
    have hcredited : Credited s₀ a.shown (s.step ev) :=
      { config := hconfig ▸ h.credited.config
        traffic := htraffic ▸ h.credited.traffic
        app := happ ▸ h.credited.app }
    have hreported := h.reported.quiet_iff ev
    constructor
    · intro hnew
      refine ⟨fun _ hmem => ?_, hreported.mp hnew.reported⟩
      cases hmem
    · intro hsound
      exact ⟨hcredited, hreported.mpr hsound.2⟩
  | some call =>
    obtain ⟨m, cur⟩ := call
    rw [observe_of_some hcall]
    obtain ⟨t, ht⟩ := call_step hcall
    have hbooks : Credited s₀ a.shown t :=
      { config := ht.config ▸ h.credited.config
        traffic := ht.traffic ▸ h.credited.traffic
        app := ht.app ▸ h.credited.app }
    have hfits : t.CreditFits a m cur ↔ s.CreditFits a m cur := by
      unfold CreditFits
      rw [ht.credited, ht.disabled]
    have hcredited := (hbooks.credit_iff (hx.call_nonneg hcall)).trans hfits
    rw [← ht.step] at hcredited
    have hreported := h.reported.call_iff ht
    constructor
    · intro hnew
      refine ⟨?_, fun hends => ?_⟩
      · rintro _ ⟨⟩
        exact ⟨hcredited.mp hnew.credited, hreported.mp hnew.reported⟩
      · rw [ht.ends] at hends
        cases hends
    · intro hsound
      obtain ⟨hfit, hknown⟩ := hsound.1 (m, cur) rfl
      exact ⟨hcredited.mpr hfit, hreported.mpr hknown⟩

end SpeedTests

end Throned.Engine.Tests
