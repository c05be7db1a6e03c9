import Mathlib.Data.List.Forall2
import Throned.Analysis.ChainHops

/-!
# What a chain adds

A chain only adds to the context that it is built in, and what it adds does not depend on what is
there: its part of every list, the slot of a custom Xray config, and an error.  A mark therefore
takes a failed chain back as a whole.
-/

set_option autoImplicit false

namespace Throned.Configs.TestBuild

open Throned.Library Throned.Engine
open Throned.Library.JsonObject

/-- What is put behind every list of a context, and into its slot. -/
structure Effect where
  outbounds : List JsonObject := []
  endpoints : List JsonObject := []
  xrayOutbounds : List JsonObject := []
  xrayIngressTags : List Text := []
  singIngressTags : List Text := []
  singToXrayBridges : List coreBridgeConfig := []
  xrayToSingBridges : List coreBridgeConfig := []
  chainGroups : List TrafficChainGroup := []
  error : Text := []
  config : Option JsonObject := none

namespace Effect

def append (a b : Effect) : Effect :=
  { outbounds := a.outbounds ++ b.outbounds
    endpoints := a.endpoints ++ b.endpoints
    xrayOutbounds := a.xrayOutbounds ++ b.xrayOutbounds
    xrayIngressTags := a.xrayIngressTags ++ b.xrayIngressTags
    singIngressTags := a.singIngressTags ++ b.singIngressTags
    singToXrayBridges := a.singToXrayBridges ++ b.singToXrayBridges
    xrayToSingBridges := a.xrayToSingBridges ++ b.xrayToSingBridges
    chainGroups := a.chainGroups ++ b.chainGroups
    error := a.error ++ b.error
    config := b.config <|> a.config }

instance : Append Effect := ⟨append⟩

variable (a b : Effect)

@[simp] theorem append_outbounds : (a ++ b).outbounds = a.outbounds ++ b.outbounds := rfl

@[simp] theorem append_endpoints : (a ++ b).endpoints = a.endpoints ++ b.endpoints := rfl

@[simp] theorem append_xrayOutbounds :
    (a ++ b).xrayOutbounds = a.xrayOutbounds ++ b.xrayOutbounds := rfl

@[simp] theorem append_xrayIngressTags :
    (a ++ b).xrayIngressTags = a.xrayIngressTags ++ b.xrayIngressTags := rfl

@[simp] theorem append_singIngressTags :
    (a ++ b).singIngressTags = a.singIngressTags ++ b.singIngressTags := rfl

@[simp] theorem append_singToXrayBridges :
    (a ++ b).singToXrayBridges = a.singToXrayBridges ++ b.singToXrayBridges := rfl

@[simp] theorem append_xrayToSingBridges :
    (a ++ b).xrayToSingBridges = a.xrayToSingBridges ++ b.xrayToSingBridges := rfl

@[simp] theorem append_chainGroups : (a ++ b).chainGroups = a.chainGroups ++ b.chainGroups := rfl

@[simp] theorem append_error : (a ++ b).error = a.error ++ b.error := rfl

@[simp] theorem append_config : (a ++ b).config = (b.config <|> a.config) := rfl

end Effect

namespace BuildContext

def apply (ctx : BuildContext) (e : Effect) : BuildContext :=
  { ctx with
    outbounds := ctx.outbounds ++ e.outbounds
    endpoints := ctx.endpoints ++ e.endpoints
    xrayOutbounds := ctx.xrayOutbounds ++ e.xrayOutbounds
    xrayIngressTags := ctx.xrayIngressTags ++ e.xrayIngressTags
    singIngressTags := ctx.singIngressTags ++ e.singIngressTags
    singToXrayBridges := ctx.singToXrayBridges ++ e.singToXrayBridges
    xrayToSingBridges := ctx.xrayToSingBridges ++ e.xrayToSingBridges
    chainGroups := ctx.chainGroups ++ e.chainGroups
    error := ctx.error ++ e.error
    xrayConfig := e.config.getD ctx.xrayConfig
    isXrayNeeded := e.config.isSome || ctx.isXrayNeeded }

variable (ctx : BuildContext) (a b : Effect)

@[simp] theorem apply_empty : ctx.apply {} = ctx := by
  simp [apply]

@[simp] theorem apply_apply : (ctx.apply a).apply b = ctx.apply (a ++ b) := by
  cases ha : a.config <;> cases hb : b.config <;> simp [apply, ha, hb]

@[simp] theorem apply_error : (ctx.apply a).error = ctx.error ++ a.error := rfl

@[simp] theorem apply_forTest : (ctx.apply a).forTest = ctx.forTest := rfl

variable {ctx}

/-- **A mark takes everything back.** -/
theorem rollback_apply (herror : ctx.error = []) :
    (ChainBuildMark.mark ctx).rollback (ctx.apply a) = ctx := by
  cases ctx
  cases herror
  simp [ChainBuildMark.mark, ChainBuildMark.rollback, apply]

end BuildContext

/-! ## The chains of the cores -/

theorem addHop_eq_apply (ctx : BuildContext) (isEndpoint : Bool) (object : JsonObject) :
    ctx.addHop isEndpoint object = ctx.apply
      { outbounds := if isEndpoint = true then [] else [object]
        endpoints := if isEndpoint = true then [object] else [] } := by
  unfold BuildContext.addHop
  split <;> simp [BuildContext.apply]

namespace Program

variable (env : Program) (opts : hopChainOptions)

def singMark (idx : ℕ) : Effect :=
  { singIngressTags := if opts.markIngress = true ∧ idx = 0 then [opts.singTag idx] else [] }

/-- What one hop of sing-box adds. -/
def singHop (idx : ℕ) (ent : Profile) (next : Option Profile) : Effect :=
  let object := env.linkHop opts idx ent next ent.Build.object
  { outbounds := if ent.IsEndpoint = true then [] else [object]
    endpoints := if ent.IsEndpoint = true then [object] else [] }

def singEffect : ℕ → List Profile → Effect
  | _, [] => {}
  | idx, ent :: ents =>
    singMark opts idx ++
      if ent.Build.error ≠ [] then { error := ent.Build.error }
      else env.singHop opts idx ent ents.head? ++ singEffect (idx + 1) ents

def xrayMark (idx : ℕ) : Effect :=
  { xrayIngressTags := if idx = 0 then [opts.xrayTag idx] else [] }

/-- What one hop of Xray adds. -/
def xrayHop (bridge : coreBridgeConfig) (idx : ℕ) (ent : Profile) (hasNext : Bool) : Effect :=
  { xrayOutbounds := [env.linkXrayHop opts idx hasNext bridge ent.BuildXray.object] }

/-- The bridge stands behind the last hop. -/
def xrayEffect (bridge : coreBridgeConfig) : ℕ → List Profile → Effect
  | idx, [] =>
    { xrayOutbounds :=
        if bridge.needed = true then [xrayBridgeOutbound (opts.plainTag idx) bridge] else [] }
  | idx, ent :: ents =>
    xrayMark opts idx ++
      if ent.BuildXray.error ≠ [] then { error := ent.BuildXray.error }
      else env.xrayHop opts bridge idx ent (!ents.isEmpty) ++ xrayEffect bridge (idx + 1) ents

variable {env opts} {bridge : coreBridgeConfig}

theorem buildSingboxChain_eq_apply (ents : List Profile) : ∀ idx ctx,
    env.buildSingboxChain opts idx ents ctx = ctx.apply (env.singEffect opts idx ents) := by
  induction ents with
  | nil => exact fun idx ctx => (ctx.apply_empty).symm
  | cons ent ents ih =>
    intro idx ctx
    have hmark : (if opts.markIngress = true ∧ idx = 0 then
        { ctx with singIngressTags := ctx.singIngressTags ++ [opts.singTag idx] } else ctx) =
        ctx.apply (singMark opts idx) := by
      unfold singMark
      split <;> simp [BuildContext.apply]
    rw [buildSingboxChain, singEffect, hmark, ih, addHop_eq_apply]
    split
    · rw [← BuildContext.apply_apply]
      simp [BuildContext.apply]
    · rw [BuildContext.apply_apply, BuildContext.apply_apply]
      rfl

theorem buildXrayChain_eq_apply (ents : List Profile) : ∀ idx ctx,
    env.buildXrayChain opts bridge idx ents ctx =
      ctx.apply (env.xrayEffect opts bridge idx ents) := by
  induction ents with
  | nil =>
    intro idx ctx
    unfold buildXrayChain xrayEffect
    split <;> simp [BuildContext.apply]
  | cons ent ents ih =>
    intro idx ctx
    have hmark : (if idx = 0 then
        { ctx with xrayIngressTags := ctx.xrayIngressTags ++ [opts.xrayTag idx] } else ctx) =
        ctx.apply (xrayMark opts idx) := by
      unfold xrayMark
      split <;> simp [BuildContext.apply]
    rw [buildXrayChain, xrayEffect, hmark, ih]
    split
    · rw [← BuildContext.apply_apply]
      simp [BuildContext.apply]
    · rw [← BuildContext.apply_apply, ← BuildContext.apply_apply]
      simp [BuildContext.apply, xrayHop]

/-! ## One chain of both cores -/

/-- The options of the leading hops, and of those behind the way back from Xray. -/
def leadingOpts (req : ChainBuildRequest) : hopChainOptions :=
  { tagPrefix := req.tagPrefix
    includeProxy := req.includeProxy
    link := req.link
    startSuffix := req.startSuffix
    warpWrap := req.warpWrap }

def tailingOpts (req : ChainBuildRequest) (leading : ℕ) : hopChainOptions :=
  { tagPrefix := req.tagPrefix
    link := req.link
    startSuffix := req.startSuffix + leading
    markIngress := true }

def groupEffect (req : ChainBuildRequest) (ents initialSing tailingSing : List Profile) : Effect :=
  { chainGroups :=
      if ents.isEmpty = true then []
      else
        [{ profiles := ents.map Profile.id
           watchTag :=
            if tailingSing.isEmpty = true then req.ingressTag
            else (tailingOpts req initialSing.length).plainTag 0 }] }

variable (env) in
/-- What the three parts of a chain add. -/
def chainsEffect (req : ChainBuildRequest) (ents initialSing : List Profile) (parts : SplitHops)
    (bridge : coreBridgeConfig) : Effect :=
  env.singEffect (leadingOpts req) 0 initialSing ++
    (if parts.xray.isEmpty = true then {} else
      env.xrayEffect (leadingOpts req) bridge 0 parts.xray) ++
    env.singEffect (tailingOpts req initialSing.length) 0 parts.tailingSing ++
    groupEffect req ents initialSing parts.tailingSing

variable {req : ChainBuildRequest} {chance : Chance} {ctx : BuildContext}
  {ents initialSing : List Profile} {parts : SplitHops}

theorem buildChains_eq_apply :
    env.buildChains req ents initialSing parts bridge ctx =
      ctx.apply (env.chainsEffect req ents initialSing parts bridge) := by
  have hxray (ctx : BuildContext) :
      (if parts.xray.isEmpty = true then ctx else
        env.buildXrayChain (leadingOpts req) bridge 0 parts.xray ctx) =
      ctx.apply (if parts.xray.isEmpty = true then {} else
        env.xrayEffect (leadingOpts req) bridge 0 parts.xray) := by
    split
    · exact (ctx.apply_empty).symm
    · exact buildXrayChain_eq_apply _ _ _
  have hgroup (ctx : BuildContext) :
      (if ents.isEmpty = true then ctx else
        { ctx with
          chainGroups := ctx.chainGroups ++
            [{ profiles := ents.map Profile.id
               watchTag :=
                if parts.tailingSing.isEmpty = true then req.ingressTag
                else (tailingOpts req initialSing.length).plainTag 0 }] }) =
      ctx.apply (groupEffect req ents initialSing parts.tailingSing) := by
    unfold groupEffect
    split <;> simp [BuildContext.apply]
  calc env.buildChains req ents initialSing parts bridge ctx
      = (env.buildSingboxChain (tailingOpts req initialSing.length) 0 parts.tailingSing
          (if parts.xray.isEmpty = true then
              env.buildSingboxChain (leadingOpts req) 0 initialSing ctx
            else env.buildXrayChain (leadingOpts req) bridge 0 parts.xray
              (env.buildSingboxChain (leadingOpts req) 0 initialSing ctx))).apply
          (groupEffect req ents initialSing parts.tailingSing) := hgroup _
    _ = _ := by
      rw [hxray, buildSingboxChain_eq_apply, buildSingboxChain_eq_apply]
      simp only [BuildContext.apply_apply, chainsEffect]

end Program

/-! ## What is settled before the hops are built -/

theorem splitHops_append {initialSing xray tailingSing : List Profile}
    (hinitial : ∀ ent ∈ initialSing, ent.IsXray = false) (hxray : ∀ ent ∈ xray, ent.IsXray = true)
    (htailing : ∀ ent ∈ tailingSing, ent.IsXray = false) (hempty : xray = [] → tailingSing = []) :
    splitHops (initialSing ++ xray ++ tailingSing) = ⟨initialSing, xray, tailingSing⟩ := by
  induction tailingSing using List.reverseRecOn with
  | nil =>
    induction xray using List.reverseRecOn with
    | nil =>
      induction initialSing using List.reverseRecOn with
      | nil => rfl
      | append_singleton initialSing ent ih =>
        have hent : ent.IsXray = false := hinitial ent (by simp)
        have hrest := ih fun ent h => hinitial ent (by simp [h])
        simp only [List.append_nil] at hrest ⊢
        rw [splitHops_append_singleton, hrest]
        simp [SplitHops.add, hent]
    | append_singleton xray ent ih =>
      have hent : ent.IsXray = true := hxray ent (by simp)
      have hrest := ih (fun ent h => hxray ent (by simp [h])) fun _ => rfl
      rw [List.append_nil] at hrest ⊢
      rw [← List.append_assoc, splitHops_append_singleton, hrest]
      simp [SplitHops.add, hent]
  | append_singleton tailingSing ent ih =>
    have hent : ent.IsXray = false := htailing ent (by simp)
    have hsome : xray ≠ [] := fun hnone => by simpa using hempty hnone
    have hrest := ih (fun ent h => htailing ent (by simp [h])) fun hnone => absurd hnone hsome
    rw [← List.append_assoc, splitHops_append_singleton, hrest]
    simp [SplitHops.add, hent, hsome]

/-- A hop as it is built: a custom Xray full config gets the bridge. -/
def Settled (ent hop : Profile) : Prop :=
  ent = hop ∨ ∃ custom port auth, 0 < port ∧ custom.type = CustomXrayFullConfig ∧
    hop.outbound = .custom custom ∧
      ent = { hop with
        outbound := .custom { custom with bridgePort := port, bridgeAuth := auth } }

theorem Settled.isXray {ent hop : Profile} (h : Settled ent hop) : ent.IsXray = hop.IsXray := by
  obtain rfl | ⟨custom, port, auth, -, -, hcustom, rfl⟩ := h
  · rfl
  · simp [Profile.IsXray, hcustom]

theorem Settled.id {ent hop : Profile} (h : Settled ent hop) : ent.id = hop.id := by
  obtain rfl | ⟨custom, port, auth, -, -, -, rfl⟩ := h
  · rfl
  · rfl

theorem splitHops_settled {ents hops : List Profile} (h : List.Forall₂ Settled ents hops)
    (hordered : hops = (splitHops hops).ents)
    (htailing : (splitHops hops).xray = [] → (splitHops hops).tailingSing = []) :
    ents = (splitHops ents).ents ∧
      List.Forall₂ Settled (splitHops ents).initialSing (splitHops hops).initialSing ∧
      List.Forall₂ Settled (splitHops ents).xray (splitHops hops).xray ∧
      List.Forall₂ Settled (splitHops ents).tailingSing (splitHops hops).tailingSing := by
  have hsame {ents hops : List Profile} (h : List.Forall₂ Settled ents hops) {b : Bool}
      (hhops : ∀ hop ∈ hops, hop.IsXray = b) : ∀ ent ∈ ents, ent.IsXray = b := by
    induction h with
    | nil => exact fun ent hent => absurd hent List.not_mem_nil
    | cons hent _ ih =>
      rw [List.forall_mem_cons] at hhops ⊢
      exact ⟨hent.isXray.trans hhops.1, ih hhops.2⟩
  generalize hparts : splitHops hops = parts at hordered htailing ⊢
  obtain ⟨hinitial, hxray, htail⟩ := splitHops_isXray hops
  rw [hparts] at hinitial hxray htail
  rw [hordered, SplitHops.ents] at h
  have hleading := List.forall₂_take_append _ _ _ h
  have hbehind := List.forall₂_drop_append _ _ _ h
  have hfirst := List.forall₂_take_append _ _ _ hleading
  have hsecond := List.forall₂_drop_append _ _ _ hleading
  generalize hboth : ents.take (parts.initialSing ++ parts.xray).length = both at *
  generalize hc : ents.drop (parts.initialSing ++ parts.xray).length = c at *
  generalize ha : both.take parts.initialSing.length = a at *
  generalize hb : both.drop parts.initialSing.length = b at *
  have hents : ents = a ++ b ++ c := by
    rw [← ha, ← hb, List.take_append_drop, ← hboth, ← hc, List.take_append_drop]
  have hsplit : splitHops ents = ⟨a, b, c⟩ := by
    rw [hents]
    refine splitHops_append (hsame hfirst hinitial) (hsame hsecond hxray) (hsame hbehind htail) ?_
    rintro rfl
    have hnone := htailing (List.forall₂_nil_left_iff.mp hsecond)
    rw [hnone] at hbehind
    exact List.forall₂_nil_right_iff.mp hbehind
  rw [hsplit]
  exact ⟨hents, hfirst, hsecond, hbehind⟩

/-- What is settled of a chain before its hops are built. -/
structure BuiltChain where
  ents : List Profile
  singToXray : Option coreBridgeConfig := none
  xrayToSing : Option coreBridgeConfig := none
  config : Option JsonObject := none

namespace BuiltChain

def parts (chain : BuiltChain) : SplitHops := splitHops chain.ents

/-- The leading hops, with the bridge into Xray behind them. -/
def initialSing (chain : BuiltChain) : List Profile :=
  chain.parts.initialSing ++ chain.singToXray.toList.map bridgeEnt

def effect (env : Program) (req : ChainBuildRequest) (chain : BuiltChain) : Effect :=
  { singToXrayBridges := chain.singToXray.toList
    xrayToSingBridges := chain.xrayToSing.toList
    config := chain.config } ++
  env.chainsEffect req chain.ents chain.initialSing chain.parts (chain.xrayToSing.getD {})

end BuiltChain

/-- A bridge that works. -/
def coreBridgeConfig.Open (bridge : coreBridgeConfig) : Prop :=
  bridge.needed = true ∧ 0 < bridge.port

namespace Program

variable {env : Program} {req : ChainBuildRequest} {chance : Chance}

/-- A chain for a list of hops, with a bridge for every change of the core. -/
structure Opens (env : Program) (ids : List ℤ) (chain : BuiltChain) : Prop where
  listed : ∃ hops : List Profile, hops.map some = ids.map env.hopOf ∧
    List.Forall₂ Settled chain.ents hops
  plain : ∀ id ∈ ids, id ≠ warpProfileID → ∀ ent, env.getProfile id = some ent →
    ent.type ≠ "chain".toList
  config : ∀ ent ∈ chain.ents.getLast?, ent.IsXrayFullConfig = true →
    ∃ config ≠ [], chain.config = some config
  ordered : chain.ents = chain.parts.ents
  tailing : chain.parts.xray = [] → chain.parts.tailingSing = []
  singToXray : chain.singToXray.isSome = !chain.parts.xray.isEmpty
  xrayToSing : chain.xrayToSing.isSome = !chain.parts.tailingSing.isEmpty
  singToXrayOpen : ∀ bridge ∈ chain.singToXray, bridge.Open
  xrayToSingOpen : ∀ bridge ∈ chain.xrayToSing, bridge.Open

theorem bridgedXrayConfig_ne_nil (req : ChainBuildRequest) (forTest : Bool) (custom : Custom) :
    env.bridgedXrayConfig req forTest custom ≠ [] := by
  have hinsert (object : JsonObject) (key : String) (value : Json) :
      insert object key value ≠ [] := by
    intro hnone
    have hlookup := lookup_insert object key key value
    rw [hnone] at hlookup
    simp at hlookup
  unfold bridgedXrayConfig
  dsimp only
  split
  · exact hinsert _ _ _
  · exact hinsert _ _ _

variable (env) in
theorem openXrayFullConfig_cases (req : ChainBuildRequest) (chance : Chance) (forTest : Bool)
    (ents : List Profile) :
    (∃ text ≠ [], ∀ ctx, ctx.forTest = forTest →
      env.openXrayFullConfig req chance ents ctx = .error { ctx with error := text }) ∨
    ∃ config settled, List.Forall₂ Settled settled ents ∧
      (∀ ent ∈ settled.getLast?, ent.IsXrayFullConfig = true → ∃ c ≠ [], config = some c) ∧
      ∀ ctx, ctx.forTest = forTest →
        env.openXrayFullConfig req chance ents ctx = .ok (ctx.apply { config }, settled) := by
  have hsame : List.Forall₂ Settled ents ents := List.forall₂_same.mpr fun ent _ => .inl rfl
  have hkept (hlast : ∀ ent ∈ ents.getLast?, ent.IsXrayFullConfig = false) :
      ∃ config settled, List.Forall₂ Settled settled ents ∧
      (∀ ent ∈ settled.getLast?, ent.IsXrayFullConfig = true → ∃ c ≠ [], config = some c) ∧
      ∀ ctx : BuildContext, ctx.forTest = forTest →
        (.ok (ctx, ents) : Except BuildContext (BuildContext × List Profile)) =
          .ok (ctx.apply { config }, settled) := by
    refine ⟨none, ents, hsame, fun ent hent hfull => ?_, fun ctx _ => ?_⟩
    · exact absurd hfull (by rw [hlast ent hent]; decide)
    · rw [BuildContext.apply_empty]
  unfold openXrayFullConfig
  split
  · rename_i id gid type custom hlast
    split
    · rename_i htype
      split
      · exact .inl ⟨_, by simp, fun ctx _ => rfl⟩
      · extract_lets port settled
        split
        · exact .inl ⟨_, by simp, fun ctx _ => rfl⟩
        · rename_i hport
          refine .inr ⟨some (env.bridgedXrayConfig req forTest settled),
            ents.dropLast ++ [⟨id, gid, type, .custom settled⟩], ?_, fun _ _ _ => ?_, ?_⟩
          · conv_rhs => rw [← List.dropLast_append_getLast? _ hlast]
            refine List.rel_append (List.forall₂_same.mpr fun ent _ => .inl rfl)
              (.cons (.inr ⟨custom, port, chance.fullConfigAuth, by omega, htype, rfl, rfl⟩) .nil)
          · exact ⟨_, bridgedXrayConfig_ne_nil _ _ _, rfl⟩
          · rintro ctx rfl
            simp [BuildContext.apply]
    · rename_i htype
      refine .inr (hkept fun ent hent => ?_)
      rw [hlast] at hent
      simp [← Option.some.inj hent, Profile.IsXrayFullConfig, htype]
  · rename_i hother
    refine .inr (hkept fun ent hent => ?_)
    unfold Profile.IsXrayFullConfig
    split
    · rename_i custom hcustom
      exact absurd (hent.trans (by rw [← hcustom])) (hother ent.id ent.gid ent.type custom)
    · rfl
    · rfl

theorem openSingToXray_cases (req : ChainBuildRequest) (chance : Chance) (transitioned : Bool)
    (initialSing : List Profile) :
    (∃ text ≠ [], ∀ ctx, openSingToXray req chance transitioned initialSing ctx =
      .error { ctx with error := text }) ∨
    ∃ (bridge : Option coreBridgeConfig) (ports : List ℤ), bridge.isSome = transitioned ∧
      (∀ b ∈ bridge, b.Open) ∧
      ∀ ctx, openSingToXray req chance transitioned initialSing ctx =
        .ok (ctx.apply { singToXrayBridges := bridge.toList },
          initialSing ++ bridge.toList.map bridgeEnt, ports) := by
  unfold openSingToXray
  cases transitioned with
  | false =>
    refine .inr ⟨none, chance.ports, rfl, by simp, fun ctx => ?_⟩
    simp
  | true =>
    cases hport : bridgePort req.singToXrayPort chance.ports with | mk port ports =>
    by_cases hclosed : port ≤ 0
    · simp only [if_true, hclosed]
      exact .inl ⟨_, by simp, fun ctx => rfl⟩
    · refine .inr ⟨some { needed := true, port, auth := chance.singToXrayAuth }, ports, rfl,
        ?_, fun ctx => ?_⟩
      · rintro b ⟨⟩
        exact ⟨rfl, not_le.mp hclosed⟩
      · simp [BuildContext.apply, hclosed]

theorem openXrayToSing_cases (req : ChainBuildRequest) (chance : Chance) (transitioned : Bool)
    (ports : List ℤ) :
    (∃ text ≠ [], ∀ ctx, openXrayToSing req chance transitioned ports ctx =
      .error { ctx with error := text }) ∨
    ∃ bridge : Option coreBridgeConfig, bridge.isSome = transitioned ∧
      (∀ b ∈ bridge, b.Open) ∧
      ∀ ctx, openXrayToSing req chance transitioned ports ctx =
        .ok (ctx.apply { xrayToSingBridges := bridge.toList }, bridge.getD {}) := by
  unfold openXrayToSing
  cases transitioned with
  | false =>
    refine .inr ⟨none, rfl, by simp, fun ctx => ?_⟩
    simp
  | true =>
    cases hport : bridgePort req.xrayToSingPort ports with | mk port rest =>
    by_cases hclosed : port ≤ 0
    · simp only [if_true, hclosed]
      exact .inl ⟨_, by simp, fun ctx => rfl⟩
    · refine .inr ⟨some { needed := true, port, auth := chance.xrayToSingAuth }, rfl,
        ?_, fun ctx => ?_⟩
      · rintro b ⟨⟩
        exact ⟨rfl, not_le.mp hclosed⟩
      · simp [BuildContext.apply, hclosed]

/-- **A chain fails with an error, or adds its hops**, whatever is in the context. -/
theorem buildOutboundChain_cases (env : Program) (req : ChainBuildRequest) (chance : Chance)
    (forTest : Bool) :
    (∃ text ≠ [], ∃ e : Effect, ∀ ctx, ctx.forTest = forTest →
      env.buildOutboundChain req chance ctx = { ctx.apply e with error := text }) ∨
    ∃ chain, env.Opens req.hopIDs chain ∧ ∀ ctx, ctx.forTest = forTest →
      env.buildOutboundChain req chance ctx = ctx.apply (chain.effect env req) := by
  by_cases herror : (env.entIDListtoEntList req.hopIDs).error = []
  · have hlisted := entIDListtoEntList_listed herror
    obtain ⟨text, htext, hopen⟩ | ⟨config, ents, hsettled, hconfig, hopen⟩ :=
      env.openXrayFullConfig_cases req chance forTest (env.entIDListtoEntList req.hopIDs).ents
    · refine .inl ⟨text, htext, {}, fun ctx hctx => ?_⟩
      simp [buildOutboundChain, herror, hopen ctx hctx]
    · obtain ⟨text, htext, hto⟩ | ⟨singToXray, ports, hsome, hpositive, hto⟩ :=
        openSingToXray_cases req chance (env.entIDListtoEntList req.hopIDs).singToXrayTransitioned
          (splitHops ents).initialSing
      · refine .inl ⟨text, htext, { config }, fun ctx hctx => ?_⟩
        simp [buildOutboundChain, herror, hopen ctx hctx, hto]
      · obtain ⟨text, htext, hfrom⟩ | ⟨xrayToSing, hback, hbackOpen, hfrom⟩ :=
          openXrayToSing_cases req chance
            (env.entIDListtoEntList req.hopIDs).xrayToSingTransitioned ports
        · refine .inl ⟨text, htext, { config } ++ { singToXrayBridges := singToXray.toList },
            fun ctx hctx => ?_⟩
          simp [buildOutboundChain, herror, hopen ctx hctx, hto, hfrom]
        · refine .inr ⟨{ ents, singToXray, xrayToSing, config }, ?_, fun ctx hctx => ?_⟩
          · obtain ⟨hordered, hinitial, hxray, htailing⟩ :=
              splitHops_settled hsettled hlisted.ordered hlisted.phase.tailing
            have hempty {a b : List Profile} (h : List.Forall₂ Settled a b) :
                a.isEmpty = b.isEmpty := by
              cases h <;> rfl
            refine ⟨⟨_, hlisted.ents, hsettled⟩, hlisted.plain, hconfig, hordered, fun hnone => ?_, ?_, ?_, hpositive,
              hbackOpen⟩
            · have hhops := hlisted.phase.tailing (List.forall₂_nil_left_iff.mp (hnone ▸ hxray))
              exact List.forall₂_nil_right_iff.mp (hhops ▸ htailing)
            · rw [hsome, hlisted.phase.singToXray, BuiltChain.parts, hempty hxray]
            · rw [hback, hlisted.phase.xrayToSing, BuiltChain.parts, hempty htailing]
          · have hbuild : env.buildOutboundChain req chance ctx =
                env.buildChains req ents
                  ((splitHops ents).initialSing ++ singToXray.toList.map bridgeEnt)
                  (splitHops ents) (xrayToSing.getD {})
                  (((ctx.apply { config }).apply { singToXrayBridges := singToXray.toList }).apply
                    { xrayToSingBridges := xrayToSing.toList }) := by
              simp [buildOutboundChain, herror, hopen ctx hctx, hto, hfrom]
            rw [hbuild, buildChains_eq_apply, BuiltChain.effect, ← BuildContext.apply_apply]
            congr 1
            simp [BuildContext.apply]
  · refine .inl ⟨_, herror, {}, fun ctx _ => ?_⟩
    simp [buildOutboundChain, herror]

/-- The same by its effect. -/
theorem buildOutboundChain_effect (env : Program) (req : ChainBuildRequest) (chance : Chance) :
    ∃ e : Effect,
      (e.error = [] → ∃ chain, env.Opens req.hopIDs chain ∧ e = chain.effect env req) ∧
      ∀ ctx, ctx.forTest = true → ctx.error = [] →
        env.buildOutboundChain req chance ctx = ctx.apply e := by
  obtain ⟨text, htext, e, hfailed⟩ | ⟨chain, hopens, hbuilt⟩ :=
    buildOutboundChain_cases env req chance true
  · refine ⟨{ e with error := text }, fun hnone => absurd hnone htext, fun ctx hctx herror => ?_⟩
    rw [hfailed ctx hctx]
    simp [BuildContext.apply, herror]
  · exact ⟨_, fun _ => ⟨chain, hopens, rfl⟩, fun ctx hctx _ => hbuilt ctx hctx⟩

/-! ## An ingress for every bridge -/

/-- Nothing for Xray, and no bridges. -/
structure SingOnly (e : Effect) : Prop where
  xrayOutbounds : e.xrayOutbounds = []
  xrayIngressTags : e.xrayIngressTags = []
  singToXrayBridges : e.singToXrayBridges = []
  xrayToSingBridges : e.xrayToSingBridges = []
  chainGroups : e.chainGroups = []
  config : e.config = none

theorem SingOnly.append {a b : Effect} (ha : SingOnly a) (hb : SingOnly b) : SingOnly (a ++ b) where
  xrayOutbounds := by simp [ha.xrayOutbounds, hb.xrayOutbounds]
  xrayIngressTags := by simp [ha.xrayIngressTags, hb.xrayIngressTags]
  singToXrayBridges := by simp [ha.singToXrayBridges, hb.singToXrayBridges]
  xrayToSingBridges := by simp [ha.xrayToSingBridges, hb.xrayToSingBridges]
  chainGroups := by simp [ha.chainGroups, hb.chainGroups]
  config := by simp [ha.config, hb.config]

theorem singEffect_singOnly {opts : hopChainOptions} (ents : List Profile) :
    ∀ idx, SingOnly (env.singEffect opts idx ents) := by
  induction ents with
  | nil => exact fun idx => ⟨rfl, rfl, rfl, rfl, rfl, rfl⟩
  | cons ent ents ih =>
    intro idx
    have hmark : SingOnly (singMark opts idx) := ⟨rfl, rfl, rfl, rfl, rfl, rfl⟩
    unfold singEffect
    split
    · exact hmark.append ⟨rfl, rfl, rfl, rfl, rfl, rfl⟩
    · exact hmark.append (.append ⟨rfl, rfl, rfl, rfl, rfl, rfl⟩ (ih _))

/-- Hops of Xray and their ingress alone. -/
structure XrayOnly (e : Effect) : Prop where
  outbounds : e.outbounds = []
  endpoints : e.endpoints = []
  singIngressTags : e.singIngressTags = []
  singToXrayBridges : e.singToXrayBridges = []
  xrayToSingBridges : e.xrayToSingBridges = []
  chainGroups : e.chainGroups = []
  config : e.config = none

theorem XrayOnly.append {a b : Effect} (ha : XrayOnly a) (hb : XrayOnly b) : XrayOnly (a ++ b) where
  outbounds := by simp [ha.outbounds, hb.outbounds]
  endpoints := by simp [ha.endpoints, hb.endpoints]
  singIngressTags := by simp [ha.singIngressTags, hb.singIngressTags]
  singToXrayBridges := by simp [ha.singToXrayBridges, hb.singToXrayBridges]
  xrayToSingBridges := by simp [ha.xrayToSingBridges, hb.xrayToSingBridges]
  chainGroups := by simp [ha.chainGroups, hb.chainGroups]
  config := by simp [ha.config, hb.config]

theorem xrayEffect_xrayOnly {opts : hopChainOptions} {bridge : coreBridgeConfig}
    (ents : List Profile) : ∀ idx, XrayOnly (env.xrayEffect opts bridge idx ents) := by
  induction ents with
  | nil => exact fun idx => ⟨rfl, rfl, rfl, rfl, rfl, rfl, rfl⟩
  | cons ent ents ih =>
    intro idx
    have hmark : XrayOnly (xrayMark opts idx) := ⟨rfl, rfl, rfl, rfl, rfl, rfl, rfl⟩
    unfold xrayEffect
    split
    · exact hmark.append ⟨rfl, rfl, rfl, rfl, rfl, rfl, rfl⟩
    · exact hmark.append (.append ⟨rfl, rfl, rfl, rfl, rfl, rfl, rfl⟩ (ih _))

theorem xrayEffect_xrayIngressTags {opts : hopChainOptions} {bridge : coreBridgeConfig}
    (ents : List Profile) : ∀ idx,
    (env.xrayEffect opts bridge idx ents).xrayIngressTags =
      if idx = 0 ∧ ents ≠ [] then [opts.xrayTag 0] else [] := by
  induction ents with
  | nil => exact fun idx => by simp [xrayEffect]
  | cons ent ents ih =>
    intro idx
    unfold xrayEffect
    split
    · by_cases hidx : idx = 0
      · simp [xrayMark, hidx]
      · simp [xrayMark, hidx]
    · by_cases hidx : idx = 0
      · simp [xrayMark, xrayHop, ih, hidx]
      · simp [xrayMark, xrayHop, ih, hidx]

/-- The part of a chain on Xray, if it has one. -/
def xrayPart (env : Program) (req : ChainBuildRequest) (chain : BuiltChain) : Effect :=
  if chain.parts.xray.isEmpty = true then {} else
    env.xrayEffect (leadingOpts req) (chain.xrayToSing.getD {}) 0 chain.parts.xray

theorem xrayPart_xrayOnly (chain : BuiltChain) : XrayOnly (env.xrayPart req chain) := by
  unfold xrayPart
  split
  · exact ⟨rfl, rfl, rfl, rfl, rfl, rfl, rfl⟩
  · exact xrayEffect_xrayOnly _ _

theorem xrayPart_xrayIngressTags (chain : BuiltChain) :
    (env.xrayPart req chain).xrayIngressTags =
      if chain.parts.xray.isEmpty = true then [] else [(leadingOpts req).xrayTag 0] := by
  unfold xrayPart
  split
  · rfl
  · rename_i hsome
    rw [xrayEffect_xrayIngressTags]
    simp_all

def leadingPart (env : Program) (req : ChainBuildRequest) (chain : BuiltChain) : Effect :=
  env.singEffect (leadingOpts req) 0 chain.initialSing

def tailingPart (env : Program) (req : ChainBuildRequest) (chain : BuiltChain) : Effect :=
  env.singEffect (tailingOpts req chain.initialSing.length) 0 chain.parts.tailingSing

def bridgePart (chain : BuiltChain) : Effect :=
  { singToXrayBridges := chain.singToXray.toList
    xrayToSingBridges := chain.xrayToSing.toList
    config := chain.config }

theorem effect_eq_parts (chain : BuiltChain) :
    chain.effect env req = bridgePart chain ++
      (env.leadingPart req chain ++ env.xrayPart req chain ++ env.tailingPart req chain ++
        groupEffect req chain.ents chain.initialSing chain.parts.tailingSing) := rfl

theorem leadingPart_singOnly (chain : BuiltChain) : SingOnly (env.leadingPart req chain) :=
  singEffect_singOnly _ _

theorem tailingPart_singOnly (chain : BuiltChain) : SingOnly (env.tailingPart req chain) :=
  singEffect_singOnly _ _

theorem effect_xrayIngressTags (chain : BuiltChain) :
    (chain.effect env req).xrayIngressTags = (env.xrayPart req chain).xrayIngressTags := by
  rw [effect_eq_parts]
  simp only [Effect.append_xrayIngressTags, (leadingPart_singOnly chain).xrayIngressTags,
    (tailingPart_singOnly chain).xrayIngressTags, bridgePart, groupEffect, List.nil_append,
    List.append_nil]

theorem effect_singToXrayBridges (chain : BuiltChain) :
    (chain.effect env req).singToXrayBridges = chain.singToXray.toList := by
  rw [effect_eq_parts]
  simp only [Effect.append_singToXrayBridges, (leadingPart_singOnly chain).singToXrayBridges,
    (tailingPart_singOnly chain).singToXrayBridges, (xrayPart_xrayOnly chain).singToXrayBridges,
    bridgePart, groupEffect, List.append_nil]

theorem effect_config (chain : BuiltChain) : (chain.effect env req).config = chain.config := by
  rw [effect_eq_parts]
  simp only [Effect.append_config, (leadingPart_singOnly chain).config,
    (tailingPart_singOnly chain).config, (xrayPart_xrayOnly chain).config, bridgePart, groupEffect]
  cases chain.config <;> rfl

theorem Opens.ingress {ids : List ℤ} {chain : BuiltChain} (h : env.Opens ids chain)
    (req : ChainBuildRequest) : (chain.effect env req).xrayIngressTags.length =
      (chain.effect env req).singToXrayBridges.length := by
  rw [effect_xrayIngressTags, effect_singToXrayBridges, xrayPart_xrayIngressTags]
  have hsome := h.singToXray
  cases hempty : chain.parts.xray.isEmpty with
  | true =>
    rw [hempty] at hsome
    simp_all
  | false =>
    rw [hempty] at hsome
    obtain ⟨bridge, hbridge⟩ := Option.isSome_iff_exists.mp hsome
    simp [hbridge]

end Program

end Throned.Configs.TestBuild
