import Throned.Analysis.ChainBlocks
import Throned.Library.Links

/-!
# The objects of a chain

The hops of one core stand in a row: each has a tag of its own, and leads to the tag of the next.
-/

set_option autoImplicit false

namespace Throned.Configs.TestBuild

open Throned.Library Throned.Engine
open Throned.Library.JsonObject

/-- A text under a key. -/
def textAt (object : JsonObject) (key : String) : Option Text :=
  match object.lookup key with
  | some (.str text) => some text
  | _ => none

def tagOf (object : JsonObject) : Option Text := textAt object "tag"

/-- How sing-box finds the outbound that another one dials through. -/
def singLinks : Links JsonObject Text where
  name := tagOf
  next object := textAt object "detour"

/-- What Xray reads of an outbound, which the build writes by `SetXrayDialerProxy`. -/
structure XrayReader (env : Program) where
  dialerProxy : JsonObject → Option Text
  dialerProxy_set : ∀ object tag, dialerProxy (env.SetXrayDialerProxy object tag) = some tag
  dialerProxy_useSystemCA : ∀ object,
    dialerProxy (env.UseXraySystemCA object) = dialerProxy object
  dialerProxy_tag : ∀ object tag, dialerProxy (insert object "tag" (.str tag)) = dialerProxy object
  dialerProxy_bridge : ∀ tag bridge, dialerProxy (Program.xrayBridgeOutbound tag bridge) = none
  tag_set : ∀ object tag, tagOf (env.SetXrayDialerProxy object tag) = tagOf object
  tag_useSystemCA : ∀ object, tagOf (env.UseXraySystemCA object) = tagOf object

def xrayLinks {env : Program} (reader : XrayReader env) : Links JsonObject Text where
  name := tagOf
  next := reader.dialerProxy

@[simp] theorem tagOf_insert_tag (object : JsonObject) (tag : Text) :
    tagOf (insert object "tag" (.str tag)) = some tag := by
  simp [tagOf, textAt]

/-- The object runs what the profile builds: only the chain's own members differ. -/
def Runs (ent : Profile) (object : JsonObject) : Prop :=
  ∀ key, key ≠ "tag" → key ≠ "detour" → key ≠ "domain_resolver" →
    object.lookup key = ent.Build.object.lookup key

namespace Program

variable (env : Program) (opts : hopChainOptions)

def singObjects : ℕ → List Profile → List JsonObject
  | _, [] => []
  | idx, ent :: ents =>
    env.linkHop opts idx ent ents.head? ent.Build.object :: singObjects (idx + 1) ents

def xrayObjects (bridge : coreBridgeConfig) : ℕ → List Profile → List JsonObject
  | idx, [] => if bridge.needed = true then [xrayBridgeOutbound (opts.plainTag idx) bridge] else []
  | idx, ent :: ents =>
    env.linkXrayHop opts idx (!ents.isEmpty) bridge ent.BuildXray.object ::
      xrayObjects bridge (idx + 1) ents

variable {env opts} {bridge : coreBridgeConfig}

theorem singEffect_objects (ents : List Profile) : ∀ idx,
    (env.singEffect opts idx ents).error = [] →
      ((env.singEffect opts idx ents).outbounds ++ (env.singEffect opts idx ents).endpoints).Perm
        (env.singObjects opts idx ents) := by
  induction ents with
  | nil => exact fun idx _ => .refl _
  | cons ent ents ih =>
    intro idx herror
    unfold singEffect at herror ⊢
    by_cases hbuilt : ent.Build.error ≠ []
    · rw [if_pos hbuilt] at herror
      exact absurd (List.append_eq_nil_iff.mp herror).2 hbuilt
    · rw [if_neg hbuilt] at herror ⊢
      have hrest := ih (idx + 1) (List.append_eq_nil_iff.mp (List.append_eq_nil_iff.mp herror).2).2
      unfold singObjects
      cases hendpoint : ent.IsEndpoint with
      | true =>
        simp only [Effect.append_outbounds, Effect.append_endpoints, singMark, singHop, hendpoint,
          if_true, List.nil_append, List.singleton_append]
        exact List.perm_middle.trans (hrest.cons _)
      | false =>
        simp only [Effect.append_outbounds, Effect.append_endpoints, singMark, singHop, hendpoint,
          Bool.false_eq_true, if_false, List.nil_append, List.cons_append]
        exact hrest.cons _

theorem xrayEffect_objects (ents : List Profile) : ∀ idx,
    (env.xrayEffect opts bridge idx ents).error = [] →
      (env.xrayEffect opts bridge idx ents).xrayOutbounds = env.xrayObjects opts bridge idx ents := by
  induction ents with
  | nil => exact fun idx _ => rfl
  | cons ent ents ih =>
    intro idx herror
    unfold xrayEffect at herror ⊢
    by_cases hbuilt : ent.BuildXray.error ≠ []
    · rw [if_pos hbuilt] at herror
      exact absurd (List.append_eq_nil_iff.mp herror).2 hbuilt
    · rw [if_neg hbuilt] at herror ⊢
      have hrest := ih (idx + 1) (List.append_eq_nil_iff.mp (List.append_eq_nil_iff.mp herror).2).2
      simp only [Effect.append_xrayOutbounds, xrayMark, xrayHop, hrest, List.nil_append,
        List.singleton_append, xrayObjects]

/-! ## Rows -/

theorem tagOf_linkHop (idx : ℕ) (ent : Profile) (next : Option Profile) (object : JsonObject) :
    tagOf (env.linkHop opts idx ent next object) = some (opts.singTag idx) := by
  unfold linkHop tagOf textAt
  simp

theorem detour_linkHop (hlink : opts.link = true) (hwarp : opts.warpWrap = false) (idx : ℕ)
    (ent : Profile) (next : Option Profile) (object : JsonObject) :
    textAt (env.linkHop opts idx ent next object) "detour" =
      if next.isSome = true then some (opts.plainTag (idx + 1)) else textAt object "detour" := by
  unfold linkHop textAt
  cases next <;> simp [hlink, hwarp]

theorem runs_linkHop (idx : ℕ) (ent : Profile) (next : Option Profile) :
    Runs ent (env.linkHop opts idx ent next ent.Build.object) := by
  intro key htag hdetour hresolver
  unfold linkHop
  simp [htag, hdetour, hresolver]

theorem singObjects_runs (ents : List Profile) : ∀ idx,
    List.Forall₂ Runs ents (env.singObjects opts idx ents) := by
  induction ents with
  | nil => exact fun idx => .nil
  | cons ent ents ih => exact fun idx => .cons (runs_linkHop idx ent _) (ih _)

theorem singObjects_tags (ents : List Profile) : ∀ idx,
    (env.singObjects opts idx ents).map tagOf =
      (List.range' idx ents.length).map fun i => some (opts.singTag i) := by
  induction ents with
  | nil => exact fun idx => rfl
  | cons ent ents ih =>
    intro idx
    rw [singObjects, List.map_cons, tagOf_linkHop, ih, List.length_cons, List.range'_succ,
      List.map_cons]

/-- The hops of sing-box dial through one another; the last one through nothing of the chain. -/
theorem singObjects_row (hlink : opts.link = true) (hwarp : opts.warpWrap = false)
    (hproxy : opts.includeProxy = false) (ents : List Profile) (hents : ents ≠ []) : ∀ idx,
    singLinks.Row (opts.plainTag idx) (env.singObjects opts idx ents)
      (textAt (ents.getLast hents).Build.object "detour") := by
  have htag (idx : ℕ) : opts.singTag idx = opts.plainTag idx := by
    simp [hopChainOptions.singTag, hopChainOptions.xrayTag, hwarp, hproxy]
  induction ents with
  | nil => exact absurd rfl hents
  | cons ent ents ih =>
    intro idx
    have hname : singLinks.name (env.linkHop opts idx ent ents.head? ent.Build.object) =
        some (opts.plainTag idx) := (tagOf_linkHop idx ent _ _).trans (by rw [htag])
    have hnext : textAt (env.linkHop opts idx ent ents.head? ent.Build.object) "detour" = _ :=
      detour_linkHop hlink hwarp idx ent ents.head? ent.Build.object
    cases ents with
    | nil =>
      have hlast : singLinks.Row _ _ _ := .last hname
      rw [show singLinks.next _ = _ from hnext] at hlast
      exact hlast
    | cons next ents => exact .step hname hnext (ih (by simp) (idx + 1))

theorem tagOf_linkXrayHop (reader : XrayReader env) (idx : ℕ) (hasNext : Bool)
    (object : JsonObject) :
    tagOf (env.linkXrayHop opts idx hasNext bridge object) = some (opts.xrayTag idx) := by
  unfold linkXrayHop
  dsimp only
  split_ifs <;> simp [reader.tag_useSystemCA, reader.tag_set]

theorem dialerProxy_linkXrayHop (reader : XrayReader env) (hlink : opts.link = true) (idx : ℕ)
    (hasNext : Bool) (object : JsonObject) :
    reader.dialerProxy (env.linkXrayHop opts idx hasNext bridge object) =
      if (hasNext || bridge.needed) = true then some (opts.plainTag (idx + 1))
      else reader.dialerProxy object := by
  unfold linkXrayHop
  dsimp only
  have hca (object : JsonObject) : reader.dialerProxy
      (if env.xray_use_system_ca = true then env.UseXraySystemCA object else object) =
      reader.dialerProxy object := by
    split
    · exact reader.dialerProxy_useSystemCA object
    · rfl
  rw [hca]
  by_cases hmore : (hasNext || bridge.needed) = true
  · have hlinked : (opts.link || bridge.needed) = true := by simp [hlink]
    rw [if_pos ⟨hmore, hlinked⟩, if_pos hmore, reader.dialerProxy_set]
  · rw [if_neg fun h => hmore h.1, if_neg hmore, reader.dialerProxy_tag]

theorem tagOf_xrayBridgeOutbound (tag : Text) (bridge : coreBridgeConfig) :
    tagOf (xrayBridgeOutbound tag bridge) = some tag := rfl

theorem xrayObjects_tags (reader : XrayReader env) (hproxy : opts.includeProxy = false)
    (ents : List Profile) : ∀ idx,
    (env.xrayObjects opts bridge idx ents).map tagOf =
      (List.range' idx (ents.length + bridge.needed.toNat)).map fun i => some (opts.plainTag i) := by
  have htag (idx : ℕ) : opts.xrayTag idx = opts.plainTag idx := by
    simp [hopChainOptions.xrayTag, hproxy]
  induction ents with
  | nil =>
    intro idx
    cases hneeded : bridge.needed with
    | true => simp [xrayObjects, hneeded, tagOf_xrayBridgeOutbound]
    | false => simp [xrayObjects, hneeded]
  | cons ent ents ih =>
    intro idx
    rw [xrayObjects, List.map_cons, tagOf_linkXrayHop reader, ih, List.length_cons,
      Nat.add_right_comm, List.range'_succ, List.map_cons, htag]

/-- The hops of Xray dial through one another, and the last one through the bridge. -/
theorem xrayObjects_row (reader : XrayReader env) (hlink : opts.link = true)
    (hproxy : opts.includeProxy = false) (ents : List Profile) (hents : ents ≠ []) : ∀ idx,
    (xrayLinks reader).Row (opts.plainTag idx) (env.xrayObjects opts bridge idx ents)
      (if bridge.needed = true then none
        else reader.dialerProxy (ents.getLast hents).BuildXray.object) := by
  have htag (idx : ℕ) : opts.xrayTag idx = opts.plainTag idx := by
    simp [hopChainOptions.xrayTag, hproxy]
  induction ents with
  | nil => exact absurd rfl hents
  | cons ent ents ih =>
    intro idx
    have hname (hasNext : Bool) : (xrayLinks reader).name
        (env.linkXrayHop opts idx hasNext bridge ent.BuildXray.object) =
        some (opts.plainTag idx) := (tagOf_linkXrayHop reader idx _ _).trans (by rw [htag])
    have hnext : reader.dialerProxy (env.linkXrayHop opts idx (!ents.isEmpty) bridge
        ent.BuildXray.object) = _ :=
      dialerProxy_linkXrayHop reader hlink idx (!ents.isEmpty) ent.BuildXray.object
    cases ents with
    | nil =>
      cases hneeded : bridge.needed with
      | true =>
        have hbridge : (xrayLinks reader).name
            (xrayBridgeOutbound (opts.plainTag (idx + 1)) bridge) =
            some (opts.plainTag (idx + 1)) := rfl
        have hlast : (xrayLinks reader).Row _ _ _ := .last hbridge
        rw [show (xrayLinks reader).next _ = _ from reader.dialerProxy_bridge _ _] at hlast
        have hstep : reader.dialerProxy (env.linkXrayHop opts idx false bridge
            ent.BuildXray.object) = some (opts.plainTag (idx + 1)) := by
          simpa [hneeded] using hnext
        simpa [xrayObjects, hneeded] using Links.Row.step (hname _) hstep hlast
      | false =>
        have hlast : (xrayLinks reader).Row _ _ _ := .last (hname false)
        have hown : (xrayLinks reader).next (env.linkXrayHop opts idx false bridge
            ent.BuildXray.object) = reader.dialerProxy ent.BuildXray.object :=
          hnext.trans (by simp [hneeded])
        rw [hown] at hlast
        simpa [xrayObjects, hneeded] using hlast
    | cons next ents =>
      exact .step (hname _) (hnext.trans (by simp)) (ih (by simp) (idx + 1))

end Program

end Throned.Configs.TestBuild
