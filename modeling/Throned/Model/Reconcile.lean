import Throned.Library.KeyedPool
import Throned.Library.Text

/-!
# The diff of a subscription refresh

The profiles of a subscription that has been downloaded again are compared with those the
group has by two digests (src/configs/sub/SubscriptionReconcile.cpp): equal content keeps
the old profile as it is, equal identity puts the new settings into it.  The arrivals are
stored in chunks while the document is read (`ImportSink`, GroupUpdater.cpp:166-233); what
becomes of each chunk is an answer of the database.
-/

set_option autoImplicit false

namespace Throned.Subscription

open Throned.Library

abbrev Digest := List UInt8

structure ProfileKeys where
  content : Digest
  identity : Digest
  deriving DecidableEq, Repr

structure OldEntry where
  id : Int
  keys : ProfileKeys
  display : Text
  deriving DecidableEq, Repr

structure NewEntry where
  id : Int
  reused : Bool
  contentKnown : Bool
  keys : ProfileKeys
  display : Text
  deriving DecidableEq, Repr

/-! ## The content index -/

structure ContentIndex where
  unclaimed : Pool Digest Int
  known : List Digest
  arrivals : List Digest
  claimedIds : List Int

namespace ContentIndex

def ofOld (old : List OldEntry) : ContentIndex :=
  { unclaimed := fun content => (old.filter fun e => e.keys.content = content).map (·.id)
    known := old.map (·.keys.content), arrivals := [], claimedIds := [] }

def knows (index : ContentIndex) (content : Digest) : Bool := content ∈ index.known

def noteArrival (index : ContentIndex) (content : Digest) : ContentIndex :=
  { index with arrivals := index.arrivals ++ [content] }

def arrived (index : ContentIndex) (content : Digest) : Bool := content ∈ index.arrivals

def isClaimed (index : ContentIndex) (id : Int) : Bool := id ∈ index.claimedIds

def claim (index : ContentIndex) (content : Digest) : ContentIndex × Option Int :=
  match index.unclaimed.take content with
  | (none, _) => (index, none)
  | (some id, unclaimed) =>
    ({ index with unclaimed, claimedIds := index.claimedIds ++ [id] }, some id)

end ContentIndex

/-! ## `Reconcile` -/

structure ReconcilePlan where
  order : List Int
  updates : List (Int × Int)
  stale : List Int
  added : List Text
  updated : List Text
  deleted : List Text
  deriving DecidableEq, Repr

/-- The pairing of leftovers and arrivals by identity. -/
structure Pairing where
  leftoverByIdentity : Pool Digest Int
  supersededBy : Int → Option Int
  matchedOld : List Int
  updates : List (Int × Int)
  updated : List Text

/-- The old profiles that neither were claimed nor have their content among the arrivals. -/
def isLeftover (index : ContentIndex) (entry : OldEntry) : Bool :=
  !(index.isClaimed entry.id || index.arrived entry.keys.content)

def Pairing.initial (old : List OldEntry) (index : ContentIndex) : Pairing :=
  { leftoverByIdentity := fun identity =>
      (old.filter fun e => isLeftover index e && e.keys.identity = identity).map (·.id)
    supersededBy := fun _ => none, matchedOld := [], updates := [], updated := [] }

/-- Whether an arrival takes part in the pairing. -/
def NewEntry.pairs (entry : NewEntry) : Bool :=
  !(decide (entry.id < 0) || entry.reused || entry.contentKnown)

def Pairing.add (p : Pairing) (entry : NewEntry) : Pairing :=
  if entry.pairs = false then p
  else
    match p.leftoverByIdentity.take entry.keys.identity with
    | (none, _) => p
    | (some oldId, leftoverByIdentity) =>
      { leftoverByIdentity, updates := p.updates ++ [(oldId, entry.id)]
        updated := p.updated ++ [entry.display]
        supersededBy := Function.update p.supersededBy entry.id (some oldId)
        matchedOld := p.matchedOld ++ [oldId] }

/-- The old profiles that stay behind. -/
def isStale (index : ContentIndex) (p : Pairing) (entry : OldEntry) : Bool :=
  !(index.isClaimed entry.id || decide (entry.id ∈ p.matchedOld))

/-- The place of an arrival in the new order. -/
def ReconcilePlan.place (p : Pairing) (plan : ReconcilePlan) (entry : NewEntry) : ReconcilePlan :=
  if entry.id < 0 then plan
  else if entry.reused then { plan with order := plan.order ++ [entry.id] }
  else
    match p.supersededBy entry.id with
    | some oldId =>
      { plan with order := plan.order ++ [oldId], stale := plan.stale ++ [entry.id] }
    | none => { plan with order := plan.order ++ [entry.id], added := plan.added ++ [entry.display] }

def reconcile (old : List OldEntry) (incoming : List NewEntry) (index : ContentIndex) :
    ReconcilePlan :=
  let p := incoming.foldl Pairing.add (.initial old index)
  let stale := old.filter (isStale index p)
  incoming.foldl (ReconcilePlan.place p)
    { order := [], updates := p.updates, stale := stale.map (·.id), added := []
      updated := p.updated, deleted := stale.map (·.display) }

/-! ## The import -/

def kInsertChunk : ℕ := 500

/-- A parsed profile, by its `contentKeyOf`, its `identityKeyOf` and the name it shows. -/
structure Arrival where
  content : Digest
  identity : Digest
  display : Text
  deriving DecidableEq, Repr

structure ImportSink where
  /-- None when the group has been cleared. -/
  index : Option ContentIndex
  entries : List NewEntry
  chunk : List Arrival
  entryIndex : List ℕ
  added : List Int
  /-- The calls of `AddProfileBatch` so far. -/
  flushed : ℕ

namespace ImportSink

def new (index : Option ContentIndex) : ImportSink :=
  { index, entries := [], chunk := [], entryIndex := [], added := [], flushed := 0 }

/-- `entries[entryIndex[i]].id = chunk[i]->id`, over the ids from `id` on. -/
def storeIds (id : Int) : List ℕ → List NewEntry → List NewEntry
  | [], entries => entries
  | i :: rest, entries => storeIds (id + 1) rest (entries.modify i fun entry => { entry with id })

/-- `AddProfileBatch` fails, or gives the profiles of the chunk the ids from one on. -/
def flush (answers : ℕ → Option Int) (s : ImportSink) : ImportSink :=
  if s.chunk = [] then s
  else
    let s :=
      match answers s.flushed with
      | none => s
      | some firstId =>
        { s with
          entries := storeIds firstId s.entryIndex s.entries
          added := s.added ++ (List.range s.chunk.length).map fun i : ℕ => firstId + i }
    { s with chunk := [], entryIndex := [], flushed := s.flushed + 1 }

/-- An arrival that is to be stored. -/
def push (answers : ℕ → Option Int) (s : ImportSink) (entry : NewEntry) (arrival : Arrival) :
    ImportSink :=
  let s :=
    { s with
      entryIndex := s.entryIndex ++ [s.entries.length], entries := s.entries ++ [entry]
      chunk := s.chunk ++ [arrival] }
  if s.chunk.length ≥ kInsertChunk then s.flush answers else s

def add (answers : ℕ → Option Int) (s : ImportSink) (arrival : Arrival) : ImportSink :=
  match s.index with
  | none => s.push answers ⟨-1, false, false, ⟨[], []⟩, arrival.display⟩ arrival
  | some index =>
    let contentKnown := index.knows arrival.content
    match (index.noteArrival arrival.content).claim arrival.content with
    | (index, some oldId) =>
      { s with
        index := some index
        entries := s.entries ++ [⟨oldId, true, contentKnown, ⟨arrival.content, []⟩, arrival.display⟩] }
    | (index, none) =>
      { s with index := some index }.push answers
        ⟨-1, false, contentKnown,
          ⟨arrival.content, if contentKnown then [] else arrival.identity⟩, arrival.display⟩ arrival

/-- All arrivals of a document, and the last chunk. -/
def importAll (answers : ℕ → Option Int) (index : Option ContentIndex) (arrivals : List Arrival) :
    ImportSink :=
  (arrivals.foldl (add answers) (new index)).flush answers

end ImportSink

end Throned.Subscription
