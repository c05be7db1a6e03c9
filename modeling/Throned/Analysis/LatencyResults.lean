import Throned.Analysis.LatencyLocks
import Throned.Analysis.TestNumbering

/-!
# Whose result is stored

A result is right where it is applied to a profile of the probe that produced it, and where it does
not take back what the last answer said of the profile.  Final answers are always right; a tick
is right or not by what it carries and when it comes.
-/

set_option autoImplicit false

namespace Throned.Engine.Tests

open Throned.Library

/-- The profile of an outbound of a target. -/
def Owns (target : Target) (tag : Text) (ent : ℤ) : Prop :=
  (target.tag2entID = [] ∧ ent = target.entID) ∨ (tag, ent) ∈ target.tag2entID

instance (target : Target) (tag : Text) (ent : ℤ) : Decidable (Owns target tag ent) := by
  unfold Owns
  infer_instance

/-- An outbound of a batch has one profile. -/
theorem owns_unique {items : List TestItem} {target : Target} (h : target ∈ batchTargets items)
    {tag : Text} {ent ent' : ℤ} (hent : Owns target tag ent) (hent' : Owns target tag ent') :
    ent = ent' := by
  have hentry : ∀ {id id' : ℤ}, (tag, id) ∈ target.tag2entID → (tag, id') ∈ target.tag2entID →
      id = id' := by
    intro id id' hid hid'
    unfold batchTargets at h
    split at h
    · exact absurd h List.not_mem_nil
    · rename_i config hbuild
      obtain hfull | hshared := List.mem_append.mp h
      · obtain ⟨_, -, rfl⟩ := List.mem_map.mp hfull
        exact absurd hid List.not_mem_nil
      · split at hshared
        · exact absurd hshared List.not_mem_nil
        · obtain rfl := List.mem_singleton.mp hshared
          exact entID_unique hbuild hid hid'
  obtain ⟨hempty, rfl⟩ | hmem := hent
  · obtain ⟨-, rfl⟩ | hmem' := hent'
    · rfl
    · rw [hempty] at hmem'
      exact absurd hmem' List.not_mem_nil
  · obtain ⟨hempty, -⟩ | hmem' := hent'
    · rw [hempty] at hmem
      exact absurd hmem List.not_mem_nil
    · exact hentry hmem hmem'

/-- A call of `applyUrlResult` or `applyIpResult`, with the target that produced the result. -/
structure Application where
  kind : LatencyKind
  source : Option Target
  ent : ℤ
  tag : Text
  result : TestResult
  /-- A tick has none. -/
  vpnConnected : Option (List (Text × Bool))
  deriving DecidableEq, Repr

/-- The result is of the profile's own outbound. -/
def Application.Owned (ap : Application) : Prop := ∃ target ∈ ap.source, Owns target ap.tag ap.ent

instance (ap : Application) : Decidable ap.Owned :=
  match hsource : ap.source with
  | none => .isFalse fun h => by
      obtain ⟨target, htarget, -⟩ := h
      rw [hsource] at htarget
      cases htarget
  | some target =>
    decidable_of_iff (Owns target ap.tag ap.ent) (by
      unfold Application.Owned
      rw [hsource]
      simp)

/-- What the run has applied, and the latency the last answer for a profile gives. -/
structure LatencyAudit where
  named : ℤ → Option ℤ := fun _ => none
  applied : List Application := []

namespace LatencyTests

variable {s : LatencyTests} {a : LatencyAudit}

/-- The result a step applies. -/
def application (s : LatencyTests) : LatencyEvent → Option Application
  | .applyFinal i =>
    match s.probes[i]? with
    | some p =>
      match p.phase with
      | .answered ((tag, res) :: _) vpnConnected =>
        (s.finalProfile p.target tag).map fun ent =>
          ⟨p.kind, some p.target, ent, tag, res, some vpnConnected⟩
      | _ => none
    | none => none
  | .applyTick i =>
    match s.probes[i]? with
    | some p =>
      match p.tick with
      | .checked (r :: _) =>
        (s.tickProfile p.target r.tag).map fun ent =>
          ⟨p.kind, (s.probes[r.probe]?).map LatencyProbe.target, ent, r.tag, r.result, none⟩
      | _ => none
    | none => none
  | _ => none

/-- The profiles whose latency is measured again, so that the last answer is out of date. -/
def retested (s : LatencyTests) : LatencyEvent → List ℤ
  | .runBatch =>
    match s.session with
    | .held run =>
      match run.batch, run.slices with
      | none, slice :: _ => if s.stopRequested then [] else failedItems slice
      | _, _ => []
    | _ => []
  | .startProbe i =>
    match s.probes[i]? with
    | some p =>
      if p.phase = .pooled ∧ s.stopRequested = false ∧ p.kind = .url then
        p.target.entID :: p.target.tag2entID.map Prod.snd
      else []
    | none => []
  | _ => []

def observe (s : LatencyTests) (a : LatencyAudit) (ev : LatencyEvent) : LatencyAudit :=
  match s.application ev with
  | some ap =>
    { named :=
        if ap.kind = .url ∧ ap.vpnConnected.isSome then
          Function.update a.named ap.ent
            (some (s.urlLatency ap.ent ap.tag ap.result ap.vpnConnected))
        else a.named
      applied := a.applied ++ [ap] }
  | none => { a with named := fun id => if id ∈ s.retested ev then none else a.named id }

def auditedStep (x : LatencyTests × LatencyAudit) (ev : LatencyEvent) :
    LatencyTests × LatencyAudit :=
  (x.1.step ev, x.1.observe x.2 ev)

/-- What a tick must meet where it is applied. -/
def Sound (x : LatencyTests × LatencyAudit) (ev : LatencyEvent) : Prop :=
  ∀ ap ∈ x.1.application ev, ap.vpnConnected = none →
    ap.Owned ∧ (ap.kind = .url → ∀ latency ∈ x.2.named ap.ent,
      x.1.urlLatency ap.ent ap.tag ap.result none = latency)

instance (x : LatencyTests × LatencyAudit) (ev : LatencyEvent) : Decidable (Sound x ev) := by
  unfold Sound
  infer_instance

/-- Every result is of its own profile, and the last answers are what is stored. -/
structure Right (x : LatencyTests × LatencyAudit) : Prop where
  owned : ∀ ap ∈ x.2.applied, ap.Owned
  stored : ∀ id, ∀ latency ∈ x.2.named id, x.1.latency id = latency

/-! ## The steps that apply results -/

inductive ApplyCases (s : LatencyTests) (ev : LatencyEvent) : Prop where
  | applies (ap : Application) (t : LatencyTests) (hap : s.application ev = some ap)
      (hstep : s.step ev = t.applyResult ap.kind ap.ent ap.tag ap.result ap.vpnConnected)
      (hlatency : t.latency = s.latency) (hvpn : t.vpnProfiles = s.vpnProfiles)
      (howned : ap.vpnConnected ≠ none → ap.Owned)
  | none (hap : s.application ev = none)
      (hstep : ∀ id, id ∉ s.retested ev → (s.step ev).latency id = s.latency id)

/-- The profile of a result of an answer owns it. -/
theorem owns_of_finalProfile {target : Target} {tag : Text} {ent : ℤ}
    (h : s.finalProfile target tag = some ent) : Owns target tag ent := by
  obtain ⟨heq, hne⟩ : testRunnerResolveEntID target.tag2entID tag target.entID = ent ∧ ent ≠ -1 := by
    dsimp only [finalProfile] at h
    split at h
    · cases h
    · rename_i hfound
      have heq := Option.some.inj h
      exact ⟨heq, fun hent => hfound (.inl (heq.trans hent))⟩
  unfold testRunnerResolveEntID at heq
  split at heq
  · rename_i hempty
    exact .inl ⟨hempty, heq.symm⟩
  · unfold entIDOf at heq
    cases hlookup : target.tag2entID.lookup tag with
    | none =>
      rw [hlookup] at heq
      exact absurd heq.symm hne
    | some id =>
      rw [hlookup, Option.getD_some] at heq
      obtain ⟨before, after, hsplit, -⟩ := List.lookup_eq_some_iff.mp hlookup
      rw [← heq]
      exact .inr (hsplit ▸ List.mem_append_right _ List.mem_cons_self)

theorem applyFinal_cases (s : LatencyTests) (i : ℕ) : s.ApplyCases (.applyFinal i) := by
  cases hi : s.probes[i]? with
  | none =>
    refine .none (by simp only [application, hi]) fun id _ => ?_
    simp only [step, applyFinal, hi]
  | some p =>
    cases hphase : p.phase with
    | answered results vpnConnected =>
      cases results with
      | nil =>
        refine .none (by simp only [application, hi, hphase]) fun id _ => ?_
        simp only [step, applyFinal, hi, hphase, setProbe]
      | cons r results =>
        obtain ⟨tag, res⟩ := r
        have hprofile : (s.setProbe i { p with phase := .answered results vpnConnected }).finalProfile
            p.target tag = s.finalProfile p.target tag := rfl
        cases hent : s.finalProfile p.target tag with
        | none =>
          have hstep : s.step (.applyFinal i) =
              s.setProbe i { p with phase := .answered results vpnConnected } := by
            simp only [step, applyFinal, hi, hphase, hprofile, hent]
          refine .none (by simp only [application, hi, hphase, hent, Option.map_none]) fun id _ => ?_
          rw [hstep]
          rfl
        | some ent =>
          refine .applies ⟨p.kind, some p.target, ent, tag, res, some vpnConnected⟩
            (s.setProbe i { p with phase := .answered results vpnConnected })
            (by simp only [application, hi, hphase, hent, Option.map_some])
            (by simp only [step, applyFinal, hi, hphase, hprofile, hent]) rfl rfl fun _ => ?_
          exact ⟨p.target, rfl, owns_of_finalProfile hent⟩
    | pooled | asked | done =>
      refine .none (by simp only [application, hi, hphase]) fun id _ => ?_
      simp only [step, applyFinal, hi, hphase]

theorem applyTick_cases (s : LatencyTests) (i : ℕ) : s.ApplyCases (.applyTick i) := by
  cases hi : s.probes[i]? with
  | none =>
    refine .none (by simp only [application, hi]) fun id _ => ?_
    simp only [step, applyTick, hi]
  | some p =>
    cases htick : p.tick with
    | checked results =>
      cases results with
      | nil =>
        refine .none (by simp only [application, hi, htick]) fun id _ => ?_
        simp only [step, applyTick, hi, htick, setTick, setProbe]
      | cons r results =>
        have hprofile : (s.setTick i p (.checked results)).tickProfile p.target r.tag =
            s.tickProfile p.target r.tag := rfl
        cases hent : s.tickProfile p.target r.tag with
        | none =>
          have hstep : s.step (.applyTick i) = s.setTick i p (.checked results) := by
            simp only [step, applyTick, hi, htick, hprofile, hent]
          refine .none (by simp only [application, hi, htick, hent, Option.map_none]) fun id _ => ?_
          rw [hstep]
          rfl
        | some ent =>
          refine .applies
            ⟨p.kind, (s.probes[r.probe]?).map LatencyProbe.target, ent, r.tag, r.result, none⟩
            (s.setTick i p (.checked results))
            (by simp only [application, hi, htick, hent, Option.map_some])
            (by simp only [step, applyTick, hi, htick, hprofile, hent]) rfl rfl fun hne => ?_
          exact absurd rfl hne
    | idle | begun | asked | replied results =>
      refine .none (by simp only [application, hi, htick]) fun id _ => ?_
      simp only [step, applyTick, hi, htick]

/-- A step either applies one result, or only changes the latencies it measures again. -/
theorem apply_cases (s : LatencyTests) (ev : LatencyEvent) : s.ApplyCases ev := by
  have hframe : ∀ {t : LatencyTests}, t.latency = s.latency → ∀ id, t.latency id = s.latency id :=
    fun ht id => congrFun ht id
  cases ev with
  | applyFinal i => exact s.applyFinal_cases i
  | applyTick i => exact s.applyTick_cases i
  | runTests kind items =>
    refine .none rfl fun id _ => hframe ?_ id
    dsimp only [step, runTests, runLatencyGroup]
    split
    · rfl
    · split
      · rfl
      · rfl
  | queueUrlTests items => exact .none rfl fun id _ => rfl
  | queuedEnters k =>
    refine .none rfl fun id _ => hframe ?_ id
    dsimp only [step, queuedEnters, runLatencyGroup]
    split
    · split
      · split
        · rfl
        · split
          · rfl
          · split <;> rfl
      · rfl
    · rfl
  | runBatch =>
    refine .none rfl fun id hid => ?_
    dsimp only [step, runBatch]
    dsimp only [retested] at hid
    split
    · rename_i run hrun
      rw [hrun] at hid
      dsimp only at hid
      split
      · rename_i slice slices hbatch hslices
        rw [hbatch, hslices] at hid
        dsimp only at hid
        split
        · rfl
        · rename_i hstop
          rw [if_neg hstop] at hid
          exact if_neg hid
      · rfl
    · rfl
  | endBatch =>
    refine .none rfl fun id _ => hframe ?_ id
    dsimp only [step, endBatch]
    split
    · split
      · split <;> rfl
      · rfl
    · rfl
  | unlock =>
    refine .none rfl fun id _ => hframe ?_ id
    dsimp only [step, unlock]
    split
    · split
      · split <;> rfl
      · rfl
    · rfl
  | finish k =>
    refine .none rfl fun id _ => hframe ?_ id
    dsimp only [step, finish]
    split
    · split <;> rfl
    · rfl
  | startProbe i =>
    refine .none rfl fun id _ => hframe ?_ id
    dsimp only [step, startProbe]
    split
    · split
      · split <;> rfl
      · rfl
    · rfl
  | publish i tag result =>
    refine .none rfl fun id _ => hframe ?_ id
    dsimp only [step, publish]
    split
    · split <;> rfl
    · rfl
  | answer i results vpnConnected =>
    refine .none rfl fun id _ => hframe ?_ id
    dsimp only [step, answer]
    split
    · split <;> rfl
    · rfl
  | fail i timeout =>
    refine .none rfl fun id _ => hframe ?_ id
    dsimp only [step, fail]
    split
    · split <;> rfl
    · rfl
  | coreEnds i =>
    refine .none rfl fun id _ => hframe ?_ id
    dsimp only [step, coreEnds]
    split
    · split <;> rfl
    · rfl
  | beginTick i =>
    refine .none rfl fun id _ => hframe ?_ id
    dsimp only [step, beginTick]
    split
    · split <;> rfl
    · rfl
  | askTick i =>
    refine .none rfl fun id _ => hframe ?_ id
    dsimp only [step, askTick]
    split
    · split <;> rfl
    · rfl
  | serveTick i =>
    refine .none rfl fun id _ => hframe ?_ id
    dsimp only [step, serveTick]
    split
    · split <;> rfl
    · rfl
  | checkTick i =>
    refine .none rfl fun id _ => hframe ?_ id
    dsimp only [step, checkTick]
    split
    · split <;> rfl
    · rfl
  | stop => exact .none rfl fun id _ => rfl
  | otherLocks =>
    refine .none rfl fun id _ => hframe ?_ id
    dsimp only [step]
    split <;> rfl
  | otherUnlocks =>
    refine .none rfl fun id _ => hframe ?_ id
    dsimp only [step]
    split <;> rfl

/-- The latency of a profile after a result is applied. -/
theorem applyResult_latency (t : LatencyTests) (ap : Application) (id : ℤ) :
    (t.applyResult ap.kind ap.ent ap.tag ap.result ap.vpnConnected).latency id =
      if ap.kind = .url ∧ id = ap.ent then
        t.urlLatency ap.ent ap.tag ap.result ap.vpnConnected
      else t.latency id := by
  obtain ⟨kind, source, ent, tag, result, vpnConnected⟩ := ap
  cases kind with
  | url =>
    dsimp only [applyResult, applyUrlResult]
    by_cases heq : id = ent
    · rw [heq, Function.update_self, if_pos ⟨rfl, rfl⟩]
    · rw [Function.update_of_ne heq, if_neg fun h => heq h.2]
  | ip => exact (if_neg fun h => LatencyKind.noConfusion h.1).symm

/-- **The sound steps are those that keep the results right.** -/
theorem Right.step_iff {x : LatencyTests × LatencyAudit} (h : Right x) (ev : LatencyEvent) :
    Right (auditedStep x ev) ↔ Sound x ev := by
  obtain ⟨s, a⟩ := x
  unfold auditedStep Sound
  dsimp only
  cases s.apply_cases ev with
  | none hap hstep =>
    unfold observe
    rw [hap]
    refine iff_of_true ⟨h.owned, fun id latency hnamed => ?_⟩ fun ap hmem => ?_
    · dsimp only at hnamed ⊢
      split at hnamed
      · cases hnamed
      · rename_i hid
        rw [hstep id hid]
        exact h.stored id latency hnamed
    · cases hmem
  | applies ap t hap hstep hlatency hvpn howned =>
    have hurl : t.urlLatency ap.ent ap.tag ap.result ap.vpnConnected =
        s.urlLatency ap.ent ap.tag ap.result ap.vpnConnected := by
      unfold urlLatency
      rw [hvpn]
    have hafter : ∀ id, (s.step ev).latency id =
        if ap.kind = .url ∧ id = ap.ent then
          s.urlLatency ap.ent ap.tag ap.result ap.vpnConnected
        else s.latency id := by
      intro id
      rw [hstep, t.applyResult_latency ap id, hurl, hlatency]
    unfold observe
    rw [hap]
    constructor
    · -- A tick that keeps the results right was sound.
      rintro hright _ ⟨⟩ htick
      refine ⟨hright.owned ap (List.mem_append_right _ List.mem_cons_self), ?_⟩
      intro hkind latency hnamed
      have hstored := hright.stored ap.ent latency (by
        dsimp only
        rw [htick, if_neg fun hsome => Bool.noConfusion hsome.2]
        exact hnamed)
      dsimp only at hstored
      rw [hafter, if_pos ⟨hkind, rfl⟩, htick] at hstored
      exact hstored
    · intro hsound
      have hthis := hsound ap rfl
      refine ⟨fun other hother => ?_, fun id latency hnamed => ?_⟩
      · obtain hother | hother := List.mem_append.mp hother
        · exact h.owned other hother
        · rw [List.mem_singleton.mp hother]
          cases hverdicts : ap.vpnConnected with
          | none => exact (hthis hverdicts).1
          | some verdicts => exact howned (by rw [hverdicts]; exact Option.some_ne_none _)
      · dsimp only at hnamed ⊢
        rw [hafter]
        by_cases hid : ap.kind = .url ∧ id = ap.ent
        · rw [if_pos hid]
          cases hverdicts : ap.vpnConnected with
          | none =>
            rw [hverdicts, if_neg fun hsome => Bool.noConfusion hsome.2, hid.2] at hnamed
            exact (hthis hverdicts).2 hid.1 latency hnamed
          | some verdicts =>
            rw [hverdicts, if_pos ⟨hid.1, rfl⟩, hid.2, Function.update_self] at hnamed
            exact Option.some.inj hnamed
        · rw [if_neg hid]
          refine h.stored id latency ?_
          split at hnamed
          · rename_i hkind
            rwa [Function.update_of_ne fun heq => hid ⟨hkind.1, heq⟩] at hnamed
          · exact hnamed

end LatencyTests

end Throned.Engine.Tests
