import Throned.Library.Text

/-!
# The crash-loop guard of the boot resume

`ResumeGuard` (src/engine/headless/ResumeGuard.cpp:20-211): the record in memory, the file
`headless-state.json` it is written to, and the operations of the runtime on it.  A save is
atomic; the process may die after any step.
-/

set_option autoImplicit false

namespace Throned.Headless

open Throned.Library

def kResumeGuardVersion : Int := 1

def kResumeGuardMaxBytes : ℕ := 64 * 1024

def kResumeGuardMaxUnstableBoots : Int := 1000000

def kStrikesToSuppress : Int := 3

namespace ExitCode

def CoreGaveUp : Int := 70

def Stuck : Int := 71

end ExitCode

/-! ## The file -/

/-- `last_exit`. -/
structure LastExit where
  code : Int
  reason : Text
  time : Int
  deriving DecidableEq, Repr

/-- What the loader reads, with its defaults where a value is not there. -/
structure StateFile where
  version : Int
  profile : Int
  strikes : Int
  armed : Bool
  armed_at : Int
  bootOpen : Bool
  unstable : Int
  last_exit : Option LastExit
  deriving DecidableEq, Repr

/-- `content` is `none` where the file cannot be opened or is no JSON object. -/
structure DiskFile where
  size : ℕ
  content : Option StateFile
  deriving DecidableEq, Repr

def intText (n : Int) : Text := if n < 0 then '-' :: decimal n.natAbs else decimal n.natAbs

def boolText (b : Bool) : Text := if b then "true".toList else "false".toList

/-- A character inside a string of compact JSON. -/
def jsonChar (c : Char) : Text :=
  if c = '"' ∨ c = '\\' then ['\\', c]
  else if c = '\n' ∨ c = '\r' ∨ c = '\t' ∨ c.val = 8 ∨ c.val = 12 then ['\\', c]
  else if c.val < 32 then ['\\', 'u', '0', '0'] ++ (if c.val < 16 then ['0'] else []) ++ hex c.toNat
  else [c]

def jsonString (s : Text) : Text := ['"'] ++ s.flatMap jsonChar ++ ['"']

def LastExit.json (e : LastExit) : Text :=
  "\x7b\"at\":".toList ++ intText e.time ++ ",\"code\":".toList ++ intText e.code ++
    ",\"reason\":".toList ++ jsonString e.reason ++ "\x7d".toList

/-- The document that `save` writes; the keys of an object are sorted. -/
@[irreducible] def StateFile.json (f : StateFile) : Text :=
  "\x7b\"boot\":\x7b\"open\":".toList ++ boolText f.bootOpen ++ ",\"unstable\":".toList ++
    intText f.unstable ++ "\x7d,".toList ++
    (match f.last_exit with
      | some e => "\"last_exit\":".toList ++ e.json ++ ",".toList
      | none => []) ++
    "\"resume\":\x7b\"armed\":".toList ++ boolText f.armed ++ ",\"armed_at\":".toList ++
    intText f.armed_at ++ ",\"profile\":".toList ++ intText f.profile ++
    ",\"strikes\":".toList ++ intText f.strikes ++ "\x7d,\"version\":".toList ++
    intText f.version ++ "\x7d\n".toList

/-- The bytes of a text in UTF-8. -/
def utf8Bytes (s : Text) : ℕ := (s.map Char.utf8Size).sum

/-! ## The record -/

structure ResumeGuard where
  profile : Int := -1
  strikes : Int := 0
  armed : Bool := false
  armedAt : Int := 0
  suppressed : Bool := false
  bootOpen : Bool := false
  unstableBoots : Int := 0
  previousExit : Option LastExit := none
  lastExit : Option LastExit := none
  deriving DecidableEq, Repr

namespace ResumeGuard

/-- What the constructor makes of the file; it saves when there was a last exit. -/
def load : Option DiskFile → ResumeGuard
  | some ⟨size, some root⟩ =>
    if kResumeGuardMaxBytes < size ∨ root.version ≠ kResumeGuardVersion then {}
    else
      let profile := if root.profile < 0 then -1 else root.profile
      let armed := decide (0 ≤ profile) && root.armed
      { profile
        strikes := max 0 (min root.strikes kStrikesToSuppress)
        armed
        armedAt := if armed then root.armed_at else 0
        bootOpen := root.bootOpen
        unstableBoots := max 0 (min root.unstable kResumeGuardMaxUnstableBoots)
        previousExit := root.last_exit }
  | _ => {}

def root (g : ResumeGuard) : StateFile :=
  { version := kResumeGuardVersion
    profile := g.profile
    strikes := g.strikes
    armed := g.armed
    armed_at := g.armedAt
    bootOpen := g.bootOpen
    unstable := g.unstableBoots
    last_exit := g.lastExit }

def disarmed (g : ResumeGuard) : ResumeGuard := { g with armed := false, armedAt := 0 }

def struck (g : ResumeGuard) : ResumeGuard :=
  { g.disarmed with strikes := min (g.strikes + 1) kStrikesToSuppress }

/-- A previous boot that never became stable is counted, and this one begins. -/
def openBoot (g : ResumeGuard) : ResumeGuard :=
  { g with
    unstableBoots :=
      if g.bootOpen then min (g.unstableBoots + 1) kResumeGuardMaxUnstableBoots
      else g.unstableBoots
    bootOpen := true }

/-- The file that `save` leaves. -/
def file (g : ResumeGuard) : DiskFile := ⟨utf8Bytes g.root.json, some g.root⟩

end ResumeGuard

/-! ## The operations -/

inductive Phase where
  | off
  /-- The constructor has run. -/
  | loaded
  /-- `settlePrevious` has run. -/
  | settled
  deriving DecidableEq, Repr

/-- The process, if it runs, and the file. -/
structure Runtime where
  guard : ResumeGuard
  disk : Option DiskFile
  phase : Phase
  deriving DecidableEq, Repr

namespace Runtime

def save (s : Runtime) : Runtime := { s with disk := some s.guard.file }

def boot (s : Runtime) : Runtime :=
  let s := { s with guard := .load s.disk, phase := .loaded }
  if s.guard.previousExit = none then s else s.save

def settlePrevious (s : Runtime) : Runtime :=
  let guard := s.guard.openBoot
  { s with guard := if guard.armed then guard.struck else guard, phase := .settled }.save

def markStable (s : Runtime) : Runtime :=
  if s.guard.bootOpen = false ∧ s.guard.unstableBoots = 0 then s
  else { s with guard := { s.guard with bootOpen := false, unstableBoots := 0 } }.save

/-- The new state, and the profile to resume. -/
def decideResume (s : Runtime) (candidateId : Int) : Runtime × Int :=
  let s := { s with guard := { s.guard with suppressed := false } }
  if candidateId < 0 then (s, -1)
  else if candidateId ≠ s.guard.profile then
    let hadRecord := 0 ≤ s.guard.profile
    let s := { s with guard := { s.guard.disarmed with profile := candidateId, strikes := 0 } }
    (if hadRecord then s.save else s, candidateId)
  else if kStrikesToSuppress ≤ s.guard.strikes then
    ({ s with guard := { s.guard with suppressed := true } }, -1)
  else (s, candidateId)

def liftSuppression (s : Runtime) (startedProfileId : Int) : Runtime :=
  if 0 ≤ startedProfileId ∧ startedProfileId ≠ s.guard.profile then
    { s with guard := { s.guard with suppressed := false } }
  else s

def arm (s : Runtime) (profileId now : Int) : Runtime :=
  if profileId < 0 then s
  else
    let guard :=
      if profileId ≠ s.guard.profile then { s.guard with profile := profileId, strikes := 0 }
      else s.guard
    { s with guard := { guard with armed := true, armedAt := now } }.save

def disarm (s : Runtime) : Runtime :=
  if s.guard.armed then { s with guard := s.guard.disarmed }.save else s

def strike (s : Runtime) : Runtime :=
  if s.guard.armed then { s with guard := s.guard.struck }.save else s

def survived (s : Runtime) (profileId : Int) : Runtime :=
  if profileId < 0 ∨ profileId ≠ s.guard.profile then s
  else if s.guard.strikes = 0 ∧ s.guard.armed = false ∧ s.guard.suppressed = false then s
  else
    { s with guard := { s.guard.disarmed with strikes := 0, suppressed := false } }.save

def noteExit (s : Runtime) (code : Int) (reason : Text) (now : Int) : Runtime :=
  let guard := { s.guard with lastExit := some ⟨code, reason, now⟩ }
  { s with
    guard :=
      if code ≠ ExitCode.CoreGaveUp ∧ code ≠ ExitCode.Stuck then guard.disarmed else guard }.save

inductive Event where
  | boot
  | settlePrevious
  | decideResume (candidateId : Int)
  | arm (profileId now : Int)
  | disarm
  | strike
  | survived (profileId : Int)
  | noteExit (code : Int) (reason : Text) (now : Int)
  | markStable
  | liftSuppression (startedProfileId : Int)
  | die
  deriving DecidableEq, Repr

/-- `none` where the process cannot make the step. -/
def step (s : Runtime) (e : Event) : Option Runtime :=
  match s.phase, e with
  | .off, .boot => some s.boot
  | .loaded, .settlePrevious => some s.settlePrevious
  | .loaded, .die => some { s with phase := .off }
  | .settled, .die => some { s with phase := .off }
  | .settled, .decideResume candidateId => some (s.decideResume candidateId).1
  | .settled, .arm profileId now => some (s.arm profileId now)
  | .settled, .disarm => some s.disarm
  | .settled, .strike => some s.strike
  | .settled, .survived profileId => some (s.survived profileId)
  | .settled, .noteExit code reason now => some (s.noteExit code reason now)
  | .settled, .markStable => some s.markStable
  | .settled, .liftSuppression startedProfileId => some (s.liftSuppression startedProfileId)
  | _, _ => none

end Runtime

end Throned.Headless
