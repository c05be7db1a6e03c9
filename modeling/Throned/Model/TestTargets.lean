import Mathlib.Data.List.Sort
import Throned.Library.Text

/-!
# What a test asks of the core

`buildTestConfigImpl` numbers the outbounds of a batch (src/configs/generate.cpp:3286-3464), and
the runner makes a target of every full config and one of all the others
(src/engine/tests/TestRunner.cpp:34-75, 494-515, 602-622).  How the build of one profile ends is
the environment's choice; the texts of the configs are left out.
-/

set_option autoImplicit false

namespace Throned.Engine.Tests

open Throned.Library

def Int2String (n : ℤ) : Text := if n < 0 then '-' :: decimal n.natAbs else decimal n.natAbs

def hopTag (tagPrefix : Text) (index : ℤ) : Text := tagPrefix ++ '-' :: Int2String index

def testChainPrefix : Text := "proxy".toList

def testXrayFullPrefix : Text := "xrayfull".toList

/-- How the build of a profile ends. -/
inductive TestCandidate where
  | skip
  /-- It is invalid, or an Xray config that did not build: its latency is -1. -/
  | invalid
  | xrayFullConfig
  | fullConfig
  | chain
  /-- The chain did not build: its latency is -1, and the number is spent. -/
  | failedChain
  /-- The whole batch ends with an error. -/
  | broken
  deriving DecidableEq, Repr

structure TestItem where
  id : ℤ
  candidate : TestCandidate
  deriving DecidableEq, Repr

/-- `BuildTestConfigResult`.  A later tag hides an earlier one. -/
structure TestConfig where
  fullConfigs : List ℤ := []
  outboundTags : List Text := []
  tag2entID : List (Text × ℤ) := []
  deriving DecidableEq, Repr

namespace TestConfig

/-- The keys of the map are in order. -/
def insertFull (config : TestConfig) (id : ℤ) : TestConfig :=
  { config with fullConfigs := (config.fullConfigs.filter (· ≠ id)).orderedInsert (· ≤ ·) id }

def insertTag (config : TestConfig) (tag : Text) (id : ℤ) : TestConfig :=
  { config with
    outboundTags := config.outboundTags ++ [tag]
    tag2entID := (tag, id) :: config.tag2entID }

end TestConfig

/-- The loop over the profiles of a batch. -/
def numberItems (config : TestConfig) (suffix : ℤ) : List TestItem → Option TestConfig
  | [] => some config
  | item :: items =>
    match item.candidate with
    | .skip | .invalid => numberItems config suffix items
    | .xrayFullConfig =>
      numberItems (config.insertTag (hopTag (hopTag testXrayFullPrefix item.id) 0) item.id)
        suffix items
    | .fullConfig => numberItems (config.insertFull item.id) suffix items
    | .chain =>
      numberItems (config.insertTag (hopTag (hopTag testChainPrefix suffix) 0) item.id)
        (suffix + 1) items
    | .failedChain => numberItems config (suffix + 1) items
    | .broken => none

def buildTestConfig (items : List TestItem) : Option TestConfig := numberItems {} 1 items

/-- The profiles whose latency the build sets to -1. -/
def failedItems : List TestItem → List ℤ
  | [] => []
  | item :: items =>
    match item.candidate with
    | .invalid | .failedChain => item.id :: failedItems items
    | .skip | .xrayFullConfig | .fullConfig | .chain => failedItems items
    | .broken => []

/-- What one probe asks for. -/
structure Target where
  outboundTags : List Text := []
  tag2entID : List (Text × ℤ) := []
  entID : ℤ := -1
  useDefaultOutbound : Bool := false
  testCurrent : Bool := false
  deriving DecidableEq, Repr

/-- `tag2entID.value(tag, -1)`. -/
def entIDOf (tag2entID : List (Text × ℤ)) (tag : Text) : ℤ := (tag2entID.lookup tag).getD (-1)

def testRunnerResolveEntID (tag2entID : List (Text × ℤ)) (tag : Text) (fallback : ℤ) : ℤ :=
  if tag2entID = [] then fallback else entIDOf tag2entID tag

/-- The probes of a batch, the full configs first. -/
def batchTargets (items : List TestItem) : List Target :=
  match buildTestConfig items with
  | none => []
  | some config =>
    (config.fullConfigs.map fun id => { useDefaultOutbound := true, entID := id }) ++
      if config.outboundTags = [] then []
      else [{ outboundTags := config.outboundTags, tag2entID := config.tag2entID }]

def testRunnerWithoutAutoSelectors (selectors profileIDs : List ℤ) : List ℤ :=
  profileIDs.filter fun id => !decide (id ∈ selectors)

/-- The slices of a list, `stepSize` at a time. -/
def slices {α : Type} (stepSize : ℕ) (l : List α) : List (List α) :=
  (List.range ((l.length + stepSize - 1) / stepSize)).map fun k =>
    (l.drop (k * stepSize)).take stepSize

def kTestRunnerBatchSize : ℕ := 100

end Throned.Engine.Tests
