import Throned.Model.RouteRule

/-!
# Endpoint rules of a routing profile

A routing profile lists VPN endpoints and holds one rule for each of them and for each endpoint
inside a chain that is opened up (src/database/entities/RouteProfile.cpp:953-993 and
src/configs/generate.cpp:1660-1671, 3122-3145).
-/

set_option autoImplicit false

namespace Throned.Routes

open Throned.Library

/-- What the endpoints are read from in a stored profile. -/
structure Profile where
  type : Text
  hasOutbound : Bool := true
  /-- `list` of the profile's outbound where that is a chain. -/
  list : Option (List ℤ) := none

abbrev Profiles := ℤ → Option Profile

def chainType : Text := "chain".toList

def isVpnEndpoint (type : Text) : Bool :=
  type = "openvpn".toList || type = "openconnect".toList

/-- The hops of a profile: the stored list is reversed, so that hop 0 is the exit. -/
def unwrapChain (getProfile : Profiles) (entID : ℤ) : List ℤ :=
  match getProfile entID with
  | none => []
  | some ent => if ent.type = chainType then (ent.list.getD []).reverse else [entID]

def CanBeAuxEndpoint (getProfile : Profiles) (id : ℤ) (ent : Profile) : Bool :=
  if !ent.hasOutbound then false
  else if isVpnEndpoint ent.type then true
  else if ent.type ≠ chainType then false
  else
    match unwrapChain getProfile id with
    | [] => false
    | exit :: _ =>
      match getProfile exit with
      | none => false
      | some exitEnt => isVpnEndpoint exitEnt.type

def AuxEndpointInnerHops (getProfile : Profiles) (endpointProfileID : ℤ) : List ℤ :=
  match getProfile endpointProfileID with
  | none => []
  | some ent =>
    if ent.type ≠ chainType ∨ CanBeAuxEndpoint getProfile endpointProfileID ent = false then []
    else
      ((unwrapChain getProfile endpointProfileID).drop 1).filter fun hopID =>
        match getProfile hopID with
        | none => false
        | some hopEnt => hopEnt.hasOutbound && isVpnEndpoint hopEnt.type

/-- A routing profile, as far as its endpoints and rules go. -/
structure RouteProfile where
  isRaw : Bool := false
  Rules : List RouteRule := []
  endpointProfileIDs : List ℤ := []
  innerHopEndpointIDs : List ℤ := []

def endpointRuleName (displayName : Option Text) : Text :=
  match displayName with
  | some name => name ++ " route prefer".toList
  | none => "Endpoint".toList

def MakeEndpointRule (stores : Stores) (endpointProfileID : ℤ) : RouteRule where
  type := .endpointPreferredBy
  outboundID := endpointProfileID
  name := endpointRuleName (stores.displayName endpointProfileID)

/-- An id joins the list once. -/
def joinOnce (targets : List ℤ) (id : ℤ) : List ℤ :=
  if id ∈ targets then targets else targets ++ [id]

def addTargets (getProfile : Profiles) (innerHopEndpointIDs targets : List ℤ) (id : ℤ) : List ℤ :=
  if id ∈ targets then targets
  else if id ∉ innerHopEndpointIDs then targets ++ [id]
  else (AuxEndpointInnerHops getProfile id).foldl joinOnce (targets ++ [id])

def endpointRuleTargets (getProfile : Profiles) (profile : RouteProfile) : List ℤ :=
  profile.endpointProfileIDs.foldl (addTargets getProfile profile.innerHopEndpointIDs) []

/-- The loop of `SyncEndpointRules`: what is kept of the rules, and the ids that are paired. -/
def keepPaired (targets : List ℤ) : List ℤ → List RouteRule → List RouteRule × List ℤ
  | paired, [] => ([], paired)
  | paired, rule :: rules =>
    if rule.type = .endpointPreferredBy then
      if rule.outboundID ∉ targets ∨ rule.outboundID ∈ paired then keepPaired targets paired rules
      else
        let (kept, paired) := keepPaired targets (rule.outboundID :: paired) rules
        (rule :: kept, paired)
    else
      let (kept, paired) := keepPaired targets paired rules
      (rule :: kept, paired)

def SyncEndpointRules (stores : Stores) (getProfile : Profiles) (profile : RouteProfile) :
    RouteProfile :=
  if profile.isRaw then profile
  else
    let targets := endpointRuleTargets getProfile profile
    let (kept, paired) := keepPaired targets [] profile.Rules
    let missing := targets.filter (· ∉ paired)
    { profile with Rules := kept ++ missing.map (MakeEndpointRule stores) }

end Throned.Routes
