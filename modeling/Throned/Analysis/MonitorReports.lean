import Throned.Library.Actors
import Throned.Library.Runs
import Throned.Model.AutoSelectorMonitor

/-!
# Which build a report is about

The audit of a run keeps what was written with the build the reply was about, and what was heard.
Replies that are used in the build they are about name the right profiles wherever they end.
-/

set_option autoImplicit false

namespace Throned.Stats

open Throned.Library

/-- A latency that was written, with the report it comes from. -/
structure LatencyWrite where
  profile : ℤ
  latency : ℤ
  tag : Text
  about : Option ℕ
  suspended : Bool
  deriving DecidableEq, Repr

/-- A pin that was stored, with the build whose core accepted it. -/
structure PinWrite where
  selector : ℤ
  memberID : ℤ
  member : Text
  about : ℕ
  deriving DecidableEq, Repr

/-- What the monitor was told. -/
inductive Heard where
  | build
  | report (about : Option ℕ) (now : ℤ) (dead suspended : Bool)
  deriving DecidableEq, Repr

/-- A rebuild that is due; what was heard before, the last first. -/
structure Decision where
  decidedAt : ℤ
  backoffSecs : ℤ
  heard : List Heard
  deriving DecidableEq, Repr

structure Emission where
  profile : ℤ
  emittedAt : ℤ
  decision : Decision
  deriving DecidableEq, Repr

structure MonitorAudit where
  writes : List LatencyWrite := []
  pins : List PinWrite := []
  heard : List Heard := []
  decision : Option Decision := none
  emissions : List Emission := []

namespace AutoSelectorMonitor

variable {s : AutoSelectorMonitor} {a : MonitorAudit}

/-- The latency a step writes. -/
def latencyWrite (s : AutoSelectorMonitor) : MonitorEvent → Option LatencyWrite
  | .persistWrites j =>
    match s.persists[j]? with
    | some p =>
      match p.members with
      | member :: _ =>
        match member.health with
        | some latency =>
          if member.profileID ∉ s.profiles ∨ s.latency member.profileID = latency then none
          else some ⟨member.profileID, latency, member.tag, p.about, p.suspended⟩
        | none => none
      | [] => none
    | none => none
  | _ => none

/-- The pin a step stores. -/
def pinWrite (s : AutoSelectorMonitor) : MonitorEvent → Option PinWrite
  | .selectStores j =>
    match s.selects[j]? with
    | some request =>
      match request.phase with
      | .handled about =>
        if request.selectorID ∈ s.selectors ∧ s.pinnedID request.selectorID ≠ request.memberID then
          some ⟨request.selectorID, request.memberID, request.member, about⟩
        else none
      | _ => none
    | none => none
  | _ => none

/-- What a step tells the monitor. -/
def hears (s : AutoSelectorMonitor) : MonitorEvent → Option Heard
  | .SetBuild _ => some .build
  | .Clear => some .build
  | .publish =>
    match s.poll with
    | .timed next usable _ now =>
      if s.active then
        some (.report next.about now (everythingDead next usable) next.suspended)
      else none
    | _ => none
  | _ => none

/-- The rebuild a step decides on. -/
def decides (s : AutoSelectorMonitor) (heard : List Heard) : MonitorEvent → Option Decision
  | .publish =>
    match s.poll with
    | .timed next usable _ now =>
      if s.active ∧ s.fires (s.exhaustedAfter next usable now) now = true then
        some ⟨now, s.rebuildBackoffSecs, heard⟩
      else none
    | _ => none
  | _ => none

/-- The signal of a step. -/
def emits (s : AutoSelectorMonitor) (decision : Option Decision) : MonitorEvent → Option Emission
  | .confirm interfaceOK nameEmpty =>
    match s.poll with
    | .confirming next =>
      if interfaceOK && nameEmpty then none
      else decision.map fun d => ⟨next.profileID, s.now, d⟩
    | _ => none
  | _ => none

def observe (s : AutoSelectorMonitor) (a : MonitorAudit) (ev : MonitorEvent) : MonitorAudit :=
  let heard := (s.hears ev).toList ++ a.heard
  { writes := a.writes ++ (s.latencyWrite ev).toList
    pins := a.pins ++ (s.pinWrite ev).toList
    heard
    decision := (s.decides heard ev).or a.decision
    emissions := a.emissions ++ (s.emits a.decision ev).toList }

def auditedStep (x : AutoSelectorMonitor × MonitorAudit) (ev : MonitorEvent) :
    AutoSelectorMonitor × MonitorAudit :=
  (x.1.step ev, x.1.observe x.2 ev)

/-! ## What a step must meet, and what it keeps -/

/-- A reply is published in the build it is about, which was set when its tags were mapped, and the
core selects in the build of the request. -/
def Sound (x : AutoSelectorMonitor × MonitorAudit) (ev : MonitorEvent) : Prop :=
  match ev with
  | .publish =>
    match x.1.poll with
    | .timed next _ build _ => x.1.active = true → build = next.about ∧ x.1.build = next.about
    | _ => True
  | .coreSelects j true =>
    match x.1.selects[j]?, x.1.coreBuild with
    | some request, some k => request.phase = .asked → request.build = some k
    | _, _ => True
  | _ => True

instance (x : AutoSelectorMonitor × MonitorAudit) (ev : MonitorEvent) : Decidable (Sound x ev) := by
  unfold Sound
  split
  · split <;> infer_instance
  · split <;> infer_instance
  · infer_instance

/-- A member of a view is the profile of its tag. -/
def RightMembers (info : AutoSelectorBuildInfo) (members : List AutoSelectorMemberView) : Prop :=
  ∀ m ∈ members, m.profileID = profileOf info.tagToProfile m.tag

/-- A view names the profiles of a build. -/
structure RightView (info : AutoSelectorBuildInfo) (view : AutoSelectorView) : Prop where
  profile : view.profileID = info.profile
  members : RightMembers info view.members
  selected : view.selectedProfileID = -1 ∨ ∃ m ∈ view.members, m.selected = true ∧
    view.selectedProfileID = profileOf info.tagToProfile m.tag

/-- The profile of a pin. -/
def pinOf (info : AutoSelectorBuildInfo) (member : Text) : ℤ :=
  if member = [] then -1 else profileOf info.tagToProfile member

/-- For the grace period and up to `t` there was nothing but reports that the build is dead. -/
def Exhausted (k : ℕ) (t : ℤ) (heard : List Heard) : Prop :=
  ∃ period before, heard = period ++ before ∧
    (∀ h ∈ period, ∃ now, h = .report (some k) now true false) ∧
    ∃ since, Heard.report (some k) since true false ∈ period ∧
      since + kPoolExhaustedGraceSecs * 1000 ≤ t

/-- **What the monitor promises.** -/
structure Right (x : AutoSelectorMonitor × MonitorAudit) : Prop where
  writes : ∀ w ∈ x.2.writes, w.suspended = false ∧ ∃ k, w.about = some k ∧
    w.profile = profileOf (x.1.builds k).tagToProfile w.tag
  pins : ∀ p ∈ x.2.pins, p.selector = (x.1.builds p.about).profile ∧
    p.memberID = pinOf (x.1.builds p.about) p.member
  view : x.1.view.valid = true → ∃ k, x.1.view.about = some k ∧ RightView (x.1.builds k) x.1.view
  emissions : ∀ e ∈ x.2.emissions, e.decision.decidedAt ≤ e.emittedAt ∧
    ∃ k, e.profile = (x.1.builds k).profile ∧ Exhausted k e.decision.decidedAt e.decision.heard
  apart : x.2.emissions.Pairwise fun e e' =>
    e.decision.decidedAt + e'.decision.backoffSecs * 1000 ≤ e'.decision.decidedAt

end AutoSelectorMonitor

end Throned.Stats
