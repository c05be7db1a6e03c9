import Mathlib.Tactic.TypeStar

/-!
# Starting and stopping the instance of the core

`Start` and `Stop` hold one lock, so they are the steps of a state machine: the variables that name
the parts of a running profile, and the parts that are running.  How the inner steps of a start come
out is part of its request; each part ends with its own `Close` or `Stop`.
-/

set_option autoImplicit false

namespace Throned.Lifecycle

/-! ## Parts -/

inductive Kind where
  | box
  | process
  /-- The file that is written for the extra process. -/
  | file
  | xray
  | gate
  | fullGate
  /-- The watch over the forwarding of the egress adapter. -/
  | watch
  /-- What was changed of the system's resolver. -/
  | systemDNS
  deriving DecidableEq, Repr

structure Part where
  kind : Kind
  id : Nat
  deriving DecidableEq, Repr

def systemDNSPart : Part := ⟨.systemDNS, 0⟩

/-- `process.Process`: its child once it was started, and what it removes when it ends. -/
structure Process where
  run : Option Nat := none
  cleanupPath : Option Nat := none
  deriving DecidableEq, Repr

/-- The variables of the package, and what runs. -/
structure World (ρ : Type*) where
  boxInstance : Option Nat := none
  instanceCancel : Option Nat := none
  /-- The cache of matched rules: its box, and the rules of that box. -/
  connRules : Option Nat × List ρ := (none, [])
  xrayInstance : Option Nat := none
  xrayGate : Option Nat := none
  xrayFullGates : List Nat := []
  extraProcess : Option Process := none
  autoRedirectMark : UInt32 := 0
  stopEgressForwardingWatch : Option Nat := none
  running : List Part := []
  /-- The name of the next part that is started. -/
  next : Nat := 0

namespace World

variable {ρ : Type*}

/-- A part is started. -/
def launch (w : World ρ) (kind : Kind) : World ρ :=
  { w with running := ⟨kind, w.next⟩ :: w.running, next := w.next + 1 }

/-- A part ends. -/
def halt (w : World ρ) (part : Part) : World ρ :=
  { w with running := w.running.filter (· ≠ part) }

def haltAll (w : World ρ) (parts : List Part) : World ρ := parts.foldl halt w

def setBoxInstance (w : World ρ) (box cancel : Option Nat) (routeRules : List ρ) : World ρ :=
  { w with boxInstance := box, instanceCancel := cancel, connRules := (box, routeRules) }

def setXray (w : World ρ) (inst gate : Option Nat) : World ρ :=
  { w with xrayInstance := inst, xrayGate := gate }

def closeXray (w : World ρ) : World ρ :=
  let cleared := { w with xrayInstance := none, xrayGate := none, xrayFullGates := [] }
  let gates := w.xrayGate.toList.map (Part.mk .gate)
  let fullGates := w.xrayFullGates.map (Part.mk .fullGate)
  let instances := w.xrayInstance.toList.map (Part.mk .xray)
  cleared.haltAll (gates ++ fullGates ++ instances)

/-- `Process.Stop`, and the variable is cleared. -/
def stopExtraProcess (w : World ρ) : World ρ :=
  match w.extraProcess with
  | none => w
  | some x =>
    let stopped := w.haltAll
      (x.run.toList.map (Part.mk .process) ++ x.cleanupPath.toList.map (Part.mk .file))
    { stopped with extraProcess := none }

/-- `sysdns.Release`. -/
def releaseDNS (w : World ρ) : World ρ := w.halt systemDNSPart

def stopSidecars (w : World ρ) : World ρ := w.releaseDNS.stopExtraProcess.closeXray

end World

/-! ## Start -/

/-- What a start is asked for, and how its inner steps come out: the error of each, if any. -/
structure StartReq (ρ : Type*) where
  NeedExtraProcess : Bool := false
  splitArgs : Option String := none
  /-- Whether a config is written for the extra process, and the error of writing it. -/
  ExtraProcessConf : Option (Option String) := none
  startExtraProcess : Option String := none
  /-- `autoRedirectMarkFor` the config of the core. -/
  mark : UInt32 := 0
  NeedXray : Bool := false
  XrayLazyStart : Bool := false
  startGate : Option String := none
  createXrayInstance : Option String := none
  prepareXray : Option String := none
  startXrayInstance : Option String := none
  /-- For each full config, the error of its gate. -/
  XrayFullConfigs : List (Option String) := []
  /-- A Tun on a system whose resolver has to be pointed at it. -/
  systemDNS : Bool := false
  prepareDNS : Option String := none
  /-- Whether a `sysdns.Prepare` that fails has changed something. -/
  prepareDNSChanged : Bool := false
  createBox : Option String := none
  routeRules : List ρ := []
  applyDNS : Option String := none
  /-- Whether there is a Tun, and whether its watch has anything to stop. -/
  TunIpv4Cidr : Bool := false
  watchesForwarding : Bool := false

/-- The error of some steps, if any, and what they leave. -/
abbrev Outcome (ρ : Type*) := Option String × World ρ

/-- The next steps, unless there was an error. -/
def Outcome.andThen {ρ : Type*} (o : Outcome ρ) (f : World ρ → Outcome ρ) : Outcome ρ :=
  match o.1 with
  | some e => (some e, o.2)
  | none => f o.2

section Start

variable {ρ : Type*} (req : StartReq ρ)

/-- The extra process, with the file it is to remove. -/
def runExtraProcess (cleanup : Option Nat) (w : World ρ) : Outcome ρ :=
  match req.startExtraProcess with
  | some e =>
    -- a process that fails to start removes its file, and stays in the variable
    (some e, { w.haltAll (cleanup.toList.map (Part.mk .file)) with
      extraProcess := some { cleanupPath := cleanup } })
  | none =>
    (none, { w.launch .process with extraProcess := some ⟨some w.next, cleanup⟩ })

def startExtra (w : World ρ) : Outcome ρ :=
  if req.NeedExtraProcess then
    match req.splitArgs with
    | some e => (some ("Failed to parse args: " ++ e), w)
    | none =>
      match req.ExtraProcessConf with
      | some (some e) => (some ("Failed to create extra.conf: " ++ e), w)
      | some none => runExtraProcess req (some w.next) (w.launch .file)
      | none => runExtraProcess req none w
  else (none, w)

def storeMark (w : World ρ) : Outcome ρ := (none, { w with autoRedirectMark := req.mark })

def startXray (w : World ρ) : Outcome ρ :=
  if req.NeedXray then
    if req.XrayLazyStart then
      match req.startGate with
      | some e => (some e, w)
      | none => (none, (w.launch .gate).setXray none (some w.next))
    else
      match req.createXrayInstance with
      | some e => (some e, w)
      | none =>
        match req.prepareXray with
        | some e => (some e, (w.launch .xray).halt ⟨.xray, w.next⟩)
        | none =>
          match req.startXrayInstance with
          | some e => (some e, (w.launch .xray).halt ⟨.xray, w.next⟩)
          | none => (none, (w.launch .xray).setXray (some w.next) none)
  else (none, w)

/-- The gates that open, in the order of their configs. -/
def openGates : List (Option String) → World ρ → List Nat × World ρ
  | [], w => ([], w)
  | some _ :: configs, w => openGates configs w
  | none :: configs, w =>
    let opened := openGates configs (w.launch .fullGate)
    (w.next :: opened.1, opened.2)

/-- The gates of the full configs, or an error, with none of them left open. -/
def startXrayFullGates (configs : List (Option String)) (w : World ρ) :
    Except String (List Nat) × World ρ :=
  match configs with
  | [] => (.ok [], w)
  | some e :: _ => (.error e, w)
  | none :: rest =>
    let opened := openGates (none :: rest) w
    match rest.findSome? id with
    | some e => (.error e, opened.2.haltAll (opened.1.map (Part.mk .fullGate)))
    | none => (.ok opened.1, opened.2)

def startFullGates (w : World ρ) : Outcome ρ :=
  if req.XrayFullConfigs = [] then (none, w)
  else
    match startXrayFullGates req.XrayFullConfigs w with
    | (.error e, w) => (some e, w.closeXray)
    | (.ok gates, w) => (none, { w with xrayFullGates := gates })

def prepareSystemDNS (w : World ρ) : Outcome ρ :=
  if req.systemDNS then
    match req.prepareDNS with
    | some e =>
      let changed := if req.prepareDNSChanged then
          { w with running := systemDNSPart :: w.running } else w
      (some ("set up the system DNS: " ++ e), changed.stopSidecars)
    | none => (none, { w with running := systemDNSPart :: w.running })
  else (none, w)

def createBox (w : World ρ) : Outcome ρ :=
  match req.createBox with
  | some e => (some e, w.stopSidecars)
  | none =>
    (none, (w.launch .box).setBoxInstance (some w.next) (some w.next) req.routeRules)

def applySystemDNS (w : World ρ) : Outcome ρ :=
  if req.systemDNS then
    match req.applyDNS with
    | some e =>
      let closed := w.releaseDNS.haltAll (w.boxInstance.toList.map (Part.mk .box))
      (some ("set the system DNS: " ++ e), closed.stopSidecars)
    | none => (none, w)
  else (none, w)

def watchEgress (w : World ρ) : Outcome ρ :=
  if req.TunIpv4Cidr then
    if req.watchesForwarding then
      (none, { w.launch .watch with stopEgressForwardingWatch := some w.next })
    else (none, { w with stopEgressForwardingWatch := none })
  else (none, w)

/-- The body of `Start`. -/
def startBody (w : World ρ) : Outcome ρ :=
  if w.boxInstance.isSome then (some "instance already started", w)
  else
    (startExtra req w).andThen fun w => (storeMark req w).andThen fun w =>
      (startXray req w).andThen fun w => (startFullGates req w).andThen fun w =>
        (prepareSystemDNS req w).andThen fun w => (createBox req w).andThen fun w =>
          (applySystemDNS req w).andThen (watchEgress req)

/-- The deferred function of `Start`, whatever the error was. -/
def forget (w : World ρ) : World ρ :=
  { w.setBoxInstance none none [] with autoRedirectMark := 0 }

def Start (w : World ρ) : Outcome ρ :=
  match startBody req w with
  | (some e, w) => (some e, forget w)
  | (none, w) => (none, w)

end Start

/-! ## Stop -/

section Stop

variable {ρ : Type*}

def stopWatch (w : World ρ) : World ρ :=
  match w.stopEgressForwardingWatch with
  | none => w
  | some n => { w.halt ⟨.watch, n⟩ with stopEgressForwardingWatch := none }

/-- `Stop`: nothing, when there is no instance. -/
def Stop (w : World ρ) : World ρ :=
  match w.boxInstance with
  | none => w
  | some box =>
    let closed := (((stopWatch w).releaseDNS).setBoxInstance none none []).halt ⟨.box, box⟩
    { closed.stopExtraProcess.closeXray with autoRedirectMark := 0 }

end Stop

/-- One request. -/
inductive Request (ρ : Type*) where
  | start (req : StartReq ρ)
  | stop

def step {ρ : Type*} (w : World ρ) : Request ρ → World ρ
  | .start req => (Start req w).2
  | .stop => Stop w

end Throned.Lifecycle
