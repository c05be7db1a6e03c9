import Throned.Analysis.LatencyResults

/-!
# What the latency tests promise

Calls and the session keep their promises in every run.  The results do just where the ticks are
sound: a poller shares its buffer with the probe of a full config, whose tag may be one of its own,
and it applies a failure of a connected VPN profile as if it were none, even after the final answer.
-/

set_option autoImplicit false

namespace Throned.Engine.Tests.LatencyTests

open Throned.Library

/-- The runner as it is constructed. -/
def launched (autoSelectors profiles vpnProfiles : List ℤ) (latency : ℤ → ℤ)
    (ipOut : ℤ → Text × Text) : LatencyTests :=
  { autoSelectors, profiles, vpnProfiles, latency, ipOut }

section Launched

variable (autoSelectors profiles vpnProfiles : List ℤ) (latency : ℤ → ℤ) (ipOut : ℤ → Text × Text)

theorem locked_launched : (launched autoSelectors profiles vpnProfiles latency ipOut).Locked where
  finishes _ hcall := absurd hcall List.not_mem_nil
  running _ _ hcall := nomatch hcall
  valid _ hholder := nomatch hholder

theorem right_launched : Right (launched autoSelectors profiles vpnProfiles latency ipOut, {}) where
  owned _ hap := absurd hap List.not_mem_nil
  stored _ _ hnamed := nomatch hnamed

def auditedRun (events : List LatencyEvent) : LatencyTests × LatencyAudit :=
  runAll auditedStep (launched autoSelectors profiles vpnProfiles latency ipOut, {}) events

end Launched

/-! ## Runs of one batch -/

def firstTag : Text := hopTag (hopTag testChainPrefix 1) 0

def timedOut : TestResult := { error := "context deadline exceeded".toList }

/-- The profile 1 is tested, and a tick that holds its result is applied after `finish`. -/
def lateTick (res : TestResult) (vpnConnected : List (Text × Bool)) : List LatencyEvent :=
  [.runTests .url [⟨1, .chain⟩], .runBatch, .startProbe 0, .publish 0 firstTag res, .beginTick 0,
    .askTick 0, .serveTick 0, .checkTick 0, .answer 0 [(firstTag, res)] vpnConnected, .applyFinal 0,
    .applyFinal 0, .endBatch, .unlock, .finish 0, .applyTick 0]

/-- The profile 2 has a full config with an outbound of the same tag. -/
def sharedTag : List LatencyEvent :=
  [.runTests .url [⟨1, .chain⟩, ⟨2, .fullConfig⟩], .runBatch, .startProbe 0, .startProbe 1,
    .publish 0 firstTag { latency_ms := 700 }, .beginTick 1, .askTick 1, .serveTick 1,
    .checkTick 1, .applyTick 1]

def newRun (events : List LatencyEvent) : LatencyTests × LatencyAudit :=
  auditedRun [] [1, 2] [1] (fun _ => 0) (fun _ => ([], [])) events

end Throned.Engine.Tests.LatencyTests
