import Throned.Analysis.TestLayout

/-!
# Where a tested tag leads

The tags of a test config are all different, so a probe of a tag goes through the hops of its
profile: on sing-box, over the bridge into Xray, and back again.
-/

set_option autoImplicit false

namespace Throned.Configs.TestBuild

open Throned.Library Throned.Engine
open Throned.Library.JsonObject

/-! ## Tags of a prefix -/

theorem append_cons_inj {a b x y : Text} {c : Char} (hx : c ∉ x) (hy : c ∉ y)
    (heq : a ++ c :: x = b ++ c :: y) : a = b ∧ x = y := by
  obtain ⟨t, rfl, ht⟩ | ⟨t, rfl, ht⟩ := List.append_eq_append_iff.mp heq
  · cases t with
    | nil => exact ⟨(List.append_nil a).symm, (List.cons.inj ht).2⟩
    | cons d t =>
      rw [List.cons_append] at ht
      exact absurd ((List.cons.inj ht).2 ▸ List.mem_append_right _ List.mem_cons_self) hx
  · cases t with
    | nil => exact ⟨List.append_nil b, (List.cons.inj ht).2.symm⟩
    | cons d t =>
      rw [List.cons_append] at ht
      exact absurd ((List.cons.inj ht).2 ▸ List.mem_append_right _ List.mem_cons_self) hy

theorem minus_notMem_Int2String (n : ℕ) : '-' ∉ Tests.Int2String (n : ℤ) := by
  unfold Tests.Int2String
  rw [if_neg (by omega)]
  intro hmem
  exact absurd (decimalDigit_of_mem_decimal hmem) (by decide)

theorem hopTag_inj {p q : Text} {i j : ℕ}
    (heq : Tests.hopTag p (i : ℤ) = Tests.hopTag q (j : ℤ)) : p = q ∧ i = j := by
  obtain ⟨hsame, hindex⟩ := append_cons_inj (minus_notMem_Int2String i)
    (minus_notMem_Int2String j) heq
  exact ⟨hsame, by exact_mod_cast Tests.Int2String_injective hindex⟩

theorem hopTag_ne_tagDirect (p : Text) (i : ℤ) : Tests.hopTag p i ≠ tagDirect := by
  intro heq
  have hmem : '-' ∈ tagDirect := by
    rw [← heq]
    simp [Tests.hopTag]
  exact absurd hmem (by decide)

/-- The tags below a count of a prefix. -/
def prefixTags (p : Text) (n : ℕ) : List (Option Text) :=
  (List.range n).map fun i : ℕ => some (Tests.hopTag p (i : ℤ))

theorem prefixTags_nodup (p : Text) (n : ℕ) : (prefixTags p n).Nodup := by
  refine List.nodup_range.map fun i j heq => ?_
  exact (hopTag_inj (Option.some.inj heq)).2

theorem prefixTags_disjoint {p q : Text} (hne : p ≠ q) (m n : ℕ) :
    List.Disjoint (prefixTags p m) (prefixTags q n) := by
  intro tag hp hq
  obtain ⟨i, -, rfl⟩ := List.mem_map.mp hp
  obtain ⟨j, -, heq⟩ := List.mem_map.mp hq
  exact hne (hopTag_inj (Option.some.inj heq)).1.symm

/-- Chains with prefixes of their own have tags of their own. -/
theorem nodup_prefixTags {β : Type} {builts : List β} {p : β → Text} (count : β → ℕ)
    (hnodup : (builts.map p).Nodup) :
    (builts.flatMap fun b => prefixTags (p b) (count b)).Nodup := by
  rw [List.nodup_flatMap]
  refine ⟨fun b _ => prefixTags_nodup _ _, ?_⟩
  exact (List.pairwise_map.mp hnodup).imp fun hne => prefixTags_disjoint hne _ _

/-! ## The objects of a chain -/

namespace BuiltItem

variable (env : Program) (b : BuiltItem)

/-- The leading hops with the bridge into Xray. -/
def leadingObjects : List JsonObject :=
  env.singObjects (Program.leadingOpts b.req) 0 b.chain.initialSing

/-- The hops behind the way back from Xray. -/
def tailingObjects : List JsonObject :=
  env.singObjects (Program.tailingOpts b.req b.chain.initialSing.length) 0
    b.chain.parts.tailingSing

/-- The hops of Xray, with the bridge back. -/
def xrayObjects : List JsonObject :=
  if b.chain.parts.xray = [] then []
  else env.xrayObjects (Program.leadingOpts b.req) (b.chain.xrayToSing.getD {}) 0
    b.chain.parts.xray

def singObjects : List JsonObject := b.leadingObjects env ++ b.tailingObjects env

variable {env b} {low : ℕ}

theorem Built.errors (h : b.Built env low) : (env.leadingPart b.req b.chain).error = [] ∧
    (env.xrayPart b.req b.chain).error = [] ∧ (env.tailingPart b.req b.chain).error = [] := by
  have herror := h.error
  rw [effect, Program.effect_eq_parts] at herror
  simp only [Effect.append_error, List.append_eq_nil_iff] at herror
  exact ⟨herror.2.1.1.1, herror.2.1.1.2, herror.2.1.2⟩

theorem Built.sing_perm (h : b.Built env low) :
    ((b.effect env).outbounds ++ (b.effect env).endpoints).Perm (b.singObjects env) := by
  obtain ⟨hleading, -, htailing⟩ := h.errors
  have hfirst := Program.singEffect_objects _ _ hleading
  have hlast := Program.singEffect_objects _ _ htailing
  have hxray : Program.XrayOnly (env.xrayPart b.req b.chain) := Program.xrayPart_xrayOnly b.chain
  rw [effect, Program.effect_eq_parts]
  simp only [Effect.append_outbounds, Effect.append_endpoints, hxray.outbounds, hxray.endpoints,
    Program.bridgePart, Program.groupEffect, List.nil_append, List.append_nil]
  refine .trans ?_ (hfirst.append hlast)
  rw [List.append_assoc, List.append_assoc]
  exact (List.perm_append_comm_assoc _ _ _).append_left _

theorem Built.xray_eq (h : b.Built env low) : (b.effect env).xrayOutbounds = b.xrayObjects env := by
  have hxray := h.errors.2.1
  rw [effect, Program.effect_eq_parts]
  simp only [Effect.append_xrayOutbounds, (Program.leadingPart_singOnly b.chain).xrayOutbounds,
    (Program.tailingPart_singOnly b.chain).xrayOutbounds, Program.bridgePart, Program.groupEffect,
    List.nil_append, List.append_nil]
  unfold Program.xrayPart at hxray ⊢
  unfold xrayObjects
  by_cases hnone : b.chain.parts.xray = []
  · rw [if_pos hnone, if_pos (by simp [hnone])]
  · rw [if_neg (by simpa using hnone)] at hxray ⊢
    rw [if_neg hnone, Program.xrayEffect_objects _ _ hxray]

/-- How many tags a chain has on either core. -/
def singCount (b : BuiltItem) : ℕ := b.chain.initialSing.length + b.chain.parts.tailingSing.length

def xrayCount (b : BuiltItem) : ℕ :=
  if b.chain.parts.xray = [] then 0
  else b.chain.parts.xray.length + (b.chain.xrayToSing.getD {}).needed.toNat

theorem Built.leading_tag (h : b.Built env low) (idx : ℕ) :
    (Program.leadingOpts b.req).singTag idx = Tests.hopTag b.req.tagPrefix (idx : ℤ) := by
  obtain ⟨-, hproxy, hwarp, hstart⟩ := h.asked.plain
  simp [Program.leadingOpts, hopChainOptions.singTag, hopChainOptions.xrayTag,
    hopChainOptions.plainTag, hproxy, hwarp, hstart]

theorem Built.tailing_tag (h : b.Built env low) (idx : ℕ) :
    (Program.tailingOpts b.req b.chain.initialSing.length).singTag idx =
      Tests.hopTag b.req.tagPrefix ((b.chain.initialSing.length + idx : ℕ) : ℤ) := by
  obtain ⟨-, -, -, hstart⟩ := h.asked.plain
  simp [Program.tailingOpts, hopChainOptions.singTag, hopChainOptions.xrayTag,
    hopChainOptions.plainTag, hstart]

theorem Built.sing_tags (h : b.Built env low) :
    (b.singObjects env).map tagOf = prefixTags b.req.tagPrefix b.singCount := by
  unfold singObjects leadingObjects tailingObjects prefixTags singCount
  rw [List.map_append, Program.singObjects_tags, Program.singObjects_tags, List.range_add,
    List.map_append, List.map_map, ← List.range_eq_range', ← List.range_eq_range']
  congr 1
  · exact List.map_congr_left fun idx _ => congrArg some (h.leading_tag idx)
  · exact List.map_congr_left fun idx _ => congrArg some (h.tailing_tag idx)

theorem Built.xray_tags (h : b.Built env low) (reader : XrayReader env) :
    (b.xrayObjects env).map tagOf = prefixTags b.req.tagPrefix b.xrayCount := by
  unfold xrayObjects xrayCount
  obtain ⟨-, hproxy, -, hstart⟩ := h.asked.plain
  split
  · rfl
  · rw [Program.xrayObjects_tags reader hproxy, ← List.range_eq_range']
    refine List.map_congr_left fun idx _ => congrArg some ?_
    simp [Program.leadingOpts, hopChainOptions.plainTag, hstart]

/-- The inbounds of Xray stand beside their bridges. -/
theorem Built.ingress (h : b.Built env low) :
    (b.effect env).xrayIngressTags.zip (b.effect env).singToXrayBridges =
      b.chain.singToXray.toList.map fun bridge => (b.req.ingressTag, bridge) := by
  unfold effect
  rw [Program.effect_xrayIngressTags, Program.effect_singToXrayBridges,
    Program.xrayPart_xrayIngressTags]
  have hsome := h.opens.singToXray
  obtain ⟨-, hproxy, -, hstart⟩ := h.asked.plain
  cases hbridge : b.chain.singToXray with
  | none => simp
  | some bridge =>
    rw [hbridge] at hsome
    rw [if_neg (by simpa using hsome)]
    simp [Program.leadingOpts, hopChainOptions.xrayTag, hopChainOptions.plainTag, hproxy,
      ChainBuildRequest.ingressTag]

theorem Built.xrayToSing (_h : b.Built env low) :
    (b.effect env).xrayToSingBridges = b.chain.xrayToSing.toList := by
  unfold effect
  rw [Program.effect_eq_parts]
  simp only [Effect.append_xrayToSingBridges,
    (Program.leadingPart_singOnly b.chain).xrayToSingBridges,
    (Program.tailingPart_singOnly b.chain).xrayToSingBridges,
    (Program.xrayPart_xrayOnly b.chain).xrayToSingBridges, Program.bridgePart,
    Program.groupEffect, List.append_nil]

end BuiltItem

/-! ## The whole config -/

namespace Program

variable {env : Program} {builts : List BuiltItem} {low : ℕ}

theorem total_cons (b : BuiltItem) (builts : List BuiltItem) :
    env.total (b :: builts) = b.effect env ++ env.total builts := rfl

theorem total_sing_perm (h : ∀ b ∈ builts, b.Built env low) :
    ((env.total builts).outbounds ++ (env.total builts).endpoints).Perm
      (builts.flatMap fun b => b.singObjects env) := by
  induction builts with
  | nil => exact .refl _
  | cons b builts ih =>
    rw [List.forall_mem_cons] at h
    rw [total_cons, List.flatMap_cons]
    refine .trans ?_ (h.1.sing_perm.append (ih h.2))
    simp only [Effect.append_outbounds, Effect.append_endpoints, List.append_assoc]
    exact (List.perm_append_comm_assoc _ _ _).append_left _

theorem total_xray_eq (h : ∀ b ∈ builts, b.Built env low) :
    (env.total builts).xrayOutbounds = builts.flatMap fun b => b.xrayObjects env := by
  induction builts with
  | nil => rfl
  | cons b builts ih =>
    rw [List.forall_mem_cons] at h
    rw [total_cons, List.flatMap_cons, Effect.append_xrayOutbounds, h.1.xray_eq, ih h.2]

theorem total_ingress (h : ∀ b ∈ builts, b.Built env low) :
    (env.total builts).xrayIngressTags.zip (env.total builts).singToXrayBridges =
      builts.flatMap fun b =>
        b.chain.singToXray.toList.map fun bridge => (b.req.ingressTag, bridge) := by
  induction builts with
  | nil => rfl
  | cons b builts ih =>
    rw [List.forall_mem_cons] at h
    have hlength : (b.effect env).xrayIngressTags.length =
        (b.effect env).singToXrayBridges.length := h.1.opens.ingress b.req
    rw [total_cons, List.flatMap_cons, Effect.append_xrayIngressTags,
      Effect.append_singToXrayBridges, List.zip_append hlength, ih h.2, h.1.ingress]

theorem total_xrayToSing (h : ∀ b ∈ builts, b.Built env low) :
    (env.total builts).xrayToSingBridges = builts.flatMap fun b => b.chain.xrayToSing.toList := by
  induction builts with
  | nil => rfl
  | cons b builts ih =>
    rw [List.forall_mem_cons] at h
    rw [total_cons, List.flatMap_cons, Effect.append_xrayToSingBridges, h.1.xrayToSing, ih h.2]

end Program

/-- The outbounds of sing-box in a config. -/
def CoreConfig.nodes (config : CoreConfig) : List JsonObject := config.outbounds ++ config.endpoints

def objectsOf (items : List Json) : List JsonObject :=
  items.filterMap fun
    | .obj object => some object
    | _ => none

theorem objectsOf_map (objects : List JsonObject) : objectsOf (objects.map Json.obj) = objects := by
  induction objects with
  | nil => rfl
  | cons object objects ih => exact congrArg (object :: ·) ih

/-- The outbounds of Xray in a config. -/
def xrayNodes (config : JsonObject) : List JsonObject := objectsOf (arrayOf config "outbounds")

/-- The rules of Xray in a config. -/
def xrayRules (config : JsonObject) : List Json :=
  match config.lookup "routing" with
  | some (.obj routing) => arrayOf routing "rules"
  | _ => []

def xrayInboundTag (tag : Text) : Text := tag ++ "-inbound".toList

def xrayRule (tag : Text) : JsonObject :=
  [("type", .str "field".toList),
    ("inboundTag", .arr [.str (xrayInboundTag tag)]),
    ("outboundTag", .str tag)]

/-- What a probe of a chain's tag goes through. -/
structure BuiltItem.Reached (env : Program) (reader : XrayReader env) (res : BuildTestConfigResult)
    (config : CoreConfig) (b : BuiltItem) : Prop where
  /-- The tag is that of the first hop, and every hop dials through the next one. -/
  leading : ∀ h : b.chain.initialSing ≠ [],
    singLinks.Path config.nodes b.req.ingressTag (b.leadingObjects env)
      (textAt (b.chain.initialSing.getLast h).Build.object "detour")
  runs : List.Forall₂ Runs (b.chain.initialSing ++ b.chain.parts.tailingSing) (b.singObjects env)
  /-- The bridge behind them comes in where the first hop of Xray takes over. -/
  bridged : ∀ bridge ∈ b.chain.singToXray,
    .obj (xraySocksInbound (xrayInboundTag b.req.ingressTag) bridge) ∈
        arrayOf res.xrayConfig "inbounds" ∧
      .obj (xrayRule b.req.ingressTag) ∈ xrayRules res.xrayConfig
  xray : ∀ h : b.chain.parts.xray ≠ [],
    ((xrayNodes res.xrayConfig).map tagOf).Nodup ∧
    (xrayLinks reader).Path (xrayNodes res.xrayConfig) b.req.ingressTag (b.xrayObjects env)
      (if b.chain.xrayToSing.isSome = true then none
        else reader.dialerProxy (b.chain.parts.xray.getLast h).BuildXray.object)
  /-- The bridge back has an inbound of sing-box. -/
  back : ∀ bridge ∈ b.chain.xrayToSing,
    socksBridgeInbound ("bridge-".toList ++ Tests.Int2String bridge.port) bridge ∈ config.inbounds
  tailing : ∀ h : b.chain.parts.tailingSing ≠ [],
    singLinks.Path config.nodes
      (Tests.hopTag b.req.tagPrefix (b.chain.initialSing.length : ℤ)) (b.tailingObjects env)
      (textAt (b.chain.parts.tailingSing.getLast h).Build.object "detour")

namespace Program

variable {env : Program} {builts : List BuiltItem}

/-- A build without an error is finished from what its run has laid out. -/
theorem BuildTestConfig_layout {xrayPorts : List ℤ} {items : List Tested}
    (hstored : ∀ item ∈ items, env.Stored item)
    (hids : (items.map fun item => item.profile.id).Nodup)
    (herror : (env.BuildTestConfig xrayPorts items).res.error = []) :
    ∃ st builts config, st.ctx.Sound ∧ env.Layout items (env.startTest items) st builts ∧
      (env.BuildTestConfig xrayPorts items).res.coreConfig = some config ∧
      (env.BuildTestConfig xrayPorts items).res.tag2entID = st.res.tag2entID ∧
      (env.BuildTestConfig xrayPorts items).res.xrayConfig =
        (env.buildXrayConfig st.ctx).xrayConfig ∧
      config.outbounds = st.ctx.outbounds ++ [[("type", .str tagDirect), ("tag", .str tagDirect)]] ∧
      config.endpoints = st.ctx.endpoints ∧
      config.route.lookup "rules" = none ∧
      config.inbounds = st.ctx.xrayToSingBridges.map fun bridge =>
        socksBridgeInbound ("bridge-".toList ++ Tests.Int2String bridge.port) bridge := by
  have hrun : (env.testItems {} id xrayPorts (env.startTest items) items).res.error = [] := by
    by_contra hfailed
    have hwhole : env.BuildTestConfig xrayPorts items =
        env.testItems {} id xrayPorts (env.startTest items) items := if_pos hfailed
    exact hfailed (hwhole ▸ herror)
  have hwhole : env.BuildTestConfig xrayPorts items =
      env.finishTest (env.testItems {} id xrayPorts (env.startTest items) items) :=
    if_neg (not_not.mpr hrun)
  obtain ⟨hsound, builts, hlayout⟩ := testItems_layout items hstored hids
    (env.startTest items) (startTest_sound items) hrun
  generalize env.testItems {} id xrayPorts (env.startTest items) items = st at hwhole hsound hlayout
  rw [hwhole]
  refine ⟨st, builts, ?_⟩
  have hnone := env.buildXrayConfig_error hsound
  have hlists : (env.buildXrayConfig st.ctx).outbounds = st.ctx.outbounds ∧
      (env.buildXrayConfig st.ctx).endpoints = st.ctx.endpoints ∧
      (env.buildXrayConfig st.ctx).xrayToSingBridges = st.ctx.xrayToSingBridges := by
    unfold buildXrayConfig
    split_ifs <;> exact ⟨rfl, rfl, rfl⟩
  unfold finishTest
  dsimp only
  rw [if_neg (not_not.mpr hnone), hlists.1, hlists.2.1, hlists.2.2]
  exact ⟨_, hsound, hlayout, rfl, rfl, rfl, rfl, rfl, by simp, rfl⟩

section Config

variable {items : List Tested} {start st : TestLoop} {config : CoreConfig}

/-- The tags of the outbounds are those of the chains and the direct one. -/
theorem Layout.nodes (h : env.Layout items start st builts)
    (hstart : start.ctx.outbounds = [] ∧ start.ctx.endpoints = [])
    (houtbounds : config.outbounds =
      st.ctx.outbounds ++ [[("type", .str tagDirect), ("tag", .str tagDirect)]])
    (hendpoints : config.endpoints = st.ctx.endpoints) :
    config.nodes.Perm ((builts.flatMap fun b => b.singObjects env) ++
      [[("type", .str tagDirect), ("tag", .str tagDirect)]]) := by
  obtain ⟨slot, needed, hctx⟩ := h.ctx
  have hperm := total_sing_perm h.built
  unfold CoreConfig.nodes
  rw [houtbounds, hendpoints, hctx]
  simp only [BuildContext.apply, hstart.1, hstart.2, List.nil_append]
  rw [List.append_assoc]
  refine (List.perm_append_comm.append_left _).trans ?_
  rw [← List.append_assoc]
  exact hperm.append_right _

theorem Layout.nodes_nodup (h : env.Layout items start st builts)
    (hnodes : config.nodes.Perm ((builts.flatMap fun b => b.singObjects env) ++
      [[("type", .str tagDirect), ("tag", .str tagDirect)]])) :
    (config.nodes.map tagOf).Nodup := by
  have htags : (builts.flatMap fun b => b.singObjects env).map tagOf =
      builts.flatMap fun b => prefixTags b.req.tagPrefix b.singCount := by
    rw [List.map_flatMap]
    exact List.flatMap_congr fun b hb => (h.built b hb).sing_tags
  rw [(hnodes.map tagOf).nodup_iff, List.map_append, htags, List.nodup_append]
  refine ⟨nodup_prefixTags _ h.prefixes, List.nodup_singleton _, ?_⟩
  rintro tag htag direct hdirect rfl
  obtain ⟨b, -, hmem⟩ := List.mem_flatMap.mp htag
  obtain ⟨i, -, rfl⟩ := List.mem_map.mp hmem
  exact hopTag_ne_tagDirect _ _ (Option.some.inj (List.mem_singleton.mp hdirect))

/-- A chain on Xray makes the build write the one Xray config. -/
theorem Layout.xrayConfig (h : env.Layout items start st builts) (hsound : st.ctx.Sound)
    (hstart : start.ctx.xrayOutbounds = [] ∧ start.ctx.xrayIngressTags = [] ∧
      start.ctx.singToXrayBridges = [])
    {b : BuiltItem} (hb : b ∈ builts) (hxray : b.chain.parts.xray ≠ []) :
    let config := (env.buildXrayConfig st.ctx).xrayConfig
    xrayNodes config = (builts.flatMap fun b => b.xrayObjects env) ∧
      arrayOf config "inbounds" =
        ((builts.flatMap fun b => b.chain.singToXray.toList.map fun bridge =>
          (b.req.ingressTag, bridge)).map fun entry =>
            .obj (xraySocksInbound (xrayInboundTag entry.1) entry.2)) ∧
      xrayRules config = st.ctx.xrayIngressTags.map fun tag => .obj (xrayRule tag) := by
  obtain ⟨slot, needed, hctx⟩ := h.ctx
  have hobjects : st.ctx.xrayOutbounds = builts.flatMap fun b => b.xrayObjects env := by
    rw [hctx]
    simp only [BuildContext.apply, hstart.1, List.nil_append]
    exact total_xray_eq h.built
  have hzip : st.ctx.xrayIngressTags.zip st.ctx.singToXrayBridges =
      builts.flatMap fun b => b.chain.singToXray.toList.map fun bridge =>
        (b.req.ingressTag, bridge) := by
    rw [hctx]
    simp only [BuildContext.apply, hstart.2.1, hstart.2.2, List.nil_append]
    exact total_ingress h.built
  have hsome : ¬ st.ctx.xrayOutbounds.isEmpty = true := by
    rw [hobjects, List.isEmpty_iff, List.flatMap_eq_nil_iff]
    intro hnone
    have hempty := hnone b hb
    unfold BuiltItem.xrayObjects at hempty
    rw [if_neg hxray] at hempty
    cases hhops : b.chain.parts.xray with
    | nil => exact hxray hhops
    | cons ent ents =>
      rw [hhops] at hempty
      exact List.cons_ne_nil _ _ hempty
  dsimp only
  unfold buildXrayConfig
  rw [if_neg hsome, if_neg (not_not.mpr hsound.ingress)]
  dsimp only
  rw [← hzip, ← hobjects]
  refine ⟨?_, ?_, ?_⟩
  · simp [xrayNodes, arrayOf, objectsOf_map]
  · simp [arrayOf, xrayInboundTag]
  · simp only [xrayRules, lookup_insert, if_true]
    rfl

theorem mem_xrayIngressTags {b : BuiltItem} {low : ℕ} (h : b.Built env low)
    {bridge : coreBridgeConfig} (hbridge : bridge ∈ b.chain.singToXray) :
    b.req.ingressTag ∈ (b.effect env).xrayIngressTags := by
  have hmem : (b.req.ingressTag, bridge) ∈
      (b.effect env).xrayIngressTags.zip (b.effect env).singToXrayBridges := by
    rw [h.ingress]
    exact List.mem_map.mpr ⟨bridge, by simpa using hbridge, rfl⟩
  exact (List.of_mem_zip hmem).1

theorem mem_total_xrayIngressTags {b : BuiltItem} (hb : b ∈ builts) {tag : Text}
    (htag : tag ∈ (b.effect env).xrayIngressTags) : tag ∈ (env.total builts).xrayIngressTags := by
  induction builts with
  | nil => exact absurd hb List.not_mem_nil
  | cons b' builts ih =>
    rw [total_cons, Effect.append_xrayIngressTags]
    obtain rfl | hrest := List.mem_cons.mp hb
    · exact List.mem_append_left _ htag
    · exact List.mem_append_right _ (ih hrest)

end Config

/-- The first hop has the tag that is probed. -/
theorem ingressTag_eq {b : BuiltItem} {low : ℕ} (h : b.Asked env low) :
    b.req.ingressTag = (leadingOpts b.req).plainTag 0 ∧
      b.req.ingressTag = Tests.hopTag b.req.tagPrefix ((0 : ℕ) : ℤ) := by
  obtain ⟨-, hproxy, -, hstart⟩ := h.plain
  simp [ChainBuildRequest.ingressTag, leadingOpts, hopChainOptions.plainTag, hproxy, hstart]

def sampleReader : XrayReader sampleProgram where
  dialerProxy object := textAt object "dialerProxy"
  dialerProxy_set object tag := by simp [textAt, sampleProgram]
  dialerProxy_useSystemCA _ := rfl
  dialerProxy_tag object tag := by simp [textAt]
  dialerProxy_bridge _ _ := rfl
  tag_set object tag := by simp [tagOf, textAt, sampleProgram]
  tag_useSystemCA _ := rfl

end Program

end Throned.Configs.TestBuild
