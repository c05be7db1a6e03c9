import Throned.Analysis.ChainBlocks

/-!
# One turn of a test build

What a profile of the batch does to the config depends on the profile, on its number and on its
ports, and not on what the others have left: it adds its part or leaves everything as it was.
-/

set_option autoImplicit false

namespace Throned.Configs.TestBuild

open Throned.Library Throned.Engine
open Throned.Library.JsonObject

/-! ## Ports -/

/-- The ports that are set aside for a profile. -/
def portCount (profile : Profile) : ℕ :=
  (if profile.IsXray = true then 1 else 0) + if profile.type = "chain".toList then 2 else 0

theorem xrayPortCount_cons (item : Tested) (items : List Tested) :
    Program.xrayPortCount (item :: items) =
      portCount item.profile + Program.xrayPortCount items := by
  unfold Program.xrayPortCount portCount
  rw [List.countP_cons, List.countP_cons]
  by_cases hchain : item.profile.type = "chain".toList
  · simp only [hchain, decide_true, if_true]
    omega
  · simp only [hchain, decide_false, Bool.false_eq_true, if_false]
    omega

theorem getD_drop (ports : List ℤ) (idx k : ℕ) : (ports.drop idx).getD k 0 = ports.getD (idx + k) 0 := by
  simp [List.getD_eq_getElem?_getD]

/-- The ports of a profile are the first ones that are left. -/
theorem testPorts_eq (xrayPorts : List ℤ) (profile : Profile) (idx : ℕ) :
    Program.testPorts xrayPorts profile idx =
      ((Program.testPorts (xrayPorts.drop idx) profile 0).1,
        (Program.testPorts (xrayPorts.drop idx) profile 0).2.1, idx + portCount profile) := by
  unfold Program.testPorts portCount
  by_cases hchain : profile.type = "chain".toList
  · cases profile.IsXray with
    | true => simp only [hchain, if_true, getD_drop, Nat.zero_add, Nat.add_zero, Nat.add_assoc]
    | false =>
      simp only [hchain, if_true, Bool.false_eq_true, if_false, getD_drop, Nat.zero_add,
        Nat.add_zero]
  · cases profile.IsXray with
    | true => simp only [hchain, if_true, if_false, getD_drop, Nat.add_zero]
    | false => simp only [hchain, Bool.false_eq_true, if_false, Nat.add_zero]

theorem getD_take (rest : List ℤ) {c k : ℕ} (h : k < c) : (rest.take c).getD k 0 = rest.getD k 0 := by
  simp [List.getD_eq_getElem?_getD, h]

theorem testPorts_take (rest : List ℤ) (profile : Profile) :
    ((Program.testPorts (rest.take (portCount profile)) profile 0).1,
      (Program.testPorts (rest.take (portCount profile)) profile 0).2.1) =
    ((Program.testPorts rest profile 0).1, (Program.testPorts rest profile 0).2.1) := by
  unfold Program.testPorts portCount
  by_cases hchain : profile.type = "chain".toList
  · cases profile.IsXray with
    | true =>
      simp only [hchain, if_true, Nat.zero_add]
      rw [getD_take rest (by decide), getD_take rest (by decide)]
    | false =>
      simp only [hchain, if_true, Bool.false_eq_true, if_false, Nat.zero_add]
      rw [getD_take rest (by decide), getD_take rest (by decide)]
  · cases profile.IsXray with
    | true =>
      simp only [hchain, if_true, if_false, Nat.add_zero]
      rw [getD_take rest (by decide)]
    | false => simp only [hchain, Bool.false_eq_true, if_false]

/-! ## Turns -/

/-- A context between two turns. -/
structure BuildContext.Sound (ctx : BuildContext) : Prop where
  forTest : ctx.forTest = true
  error : ctx.error = []
  ingress : ctx.xrayIngressTags.length = ctx.singToXrayBridges.length

theorem BuildContext.Sound.apply {ctx : BuildContext} (h : ctx.Sound) {e : Effect}
    (herror : e.error = []) (hingress : e.xrayIngressTags.length = e.singToXrayBridges.length) :
    (ctx.apply e).Sound where
  forTest := h.forTest
  error := by simp [h.error, herror]
  ingress := by simp [BuildContext.apply, h.ingress, hingress]

/-- The context with other sections. -/
def BuildContext.withCore (ctx : BuildContext) (core : CoreConfig) : BuildContext :=
  { ctx with coreConfig := core }

/-- What a profile of the batch does. -/
structure Turn where
  outcome : Outcome
  /-- The turn takes a number. -/
  numbered : Bool := false
  ports : ℕ := 0
  add : BuildContext × BuildTestConfigResult → BuildContext × BuildTestConfigResult := id

def TestLoop.take (st : TestLoop) (turn : Turn) : TestLoop :=
  { ctx := (turn.add (st.ctx, st.res)).1
    suffix := st.suffix + turn.numbered.toNat
    xrayPortIdx := st.xrayPortIdx + turn.ports
    res := (turn.add (st.ctx, st.res)).2 }

def nullGroupError : Text := "Null group on profile, data is corrupted".toList

def BuildTestConfigResult.addTag (res : BuildTestConfigResult) (tag : Text) (id : ℤ) :
    BuildTestConfigResult :=
  { res with
    outboundTags := res.outboundTags ++ [tag]
    tag2entID := (tag, id) :: res.tag2entID }

/-- What is asked of the chain of a custom Xray full config. -/
def xrayFullReq (profile : Profile) : ChainBuildRequest :=
  { hopIDs := [profile.id]
    tagPrefix := Tests.hopTag Tests.testXrayFullPrefix profile.id }

/-- What is asked of a numbered chain. -/
def chainReq (IDs : List ℤ) (n : ℕ) (singToXrayPort xrayToSingPort : ℤ) : ChainBuildRequest :=
  { hopIDs := IDs
    tagPrefix := Tests.hopTag Tests.testChainPrefix (n : ℤ)
    singToXrayPort
    xrayToSingPort }

namespace Turn

variable (env : Program) (profile : Profile)

/-- The config of the profile is kept by itself. -/
def full (config : JsonObject) : Turn :=
  { outcome := .tested
    add := fun st => (st.1,
      { st.2 with
        fullConfigs :=
          (profile.id, config) :: st.2.fullConfigs.filter fun entry => entry.1 ≠ profile.id }) }

/-- The slot goes to the result, and is free again. -/
def xrayFull (chain : BuiltChain) (config : JsonObject) : Turn :=
  { outcome := .tested
    add := fun st => (
      { st.1.apply (chain.effect env (xrayFullReq profile)) with
        xrayConfig := []
        isXrayNeeded := false },
      { st.2.addTag (xrayFullReq profile).ingressTag profile.id with
        xrayFullConfigs := st.2.xrayFullConfigs ++ [config] }) }

def chain (chain : BuiltChain) (req : ChainBuildRequest) : Turn :=
  { outcome := .tested
    numbered := true
    ports := portCount profile
    add := fun st =>
      (st.1.apply (chain.effect env req), st.2.addTag req.ingressTag profile.id) }

end Turn

/-- The turns that a profile with the number `n` can take. -/
inductive Turned (env : Program) (profile : Profile) (n : ℕ) : Turn → Prop where
  | idle (outcome : Outcome) (numbered : Bool) (ports : ℕ)
      (htested : outcome = .skipped ∨ outcome = .failed) (hports : ports ≤ portCount profile) :
      Turned env profile n { outcome, numbered, ports }
  | aborted (hgroup : env.GetGroup profile.gid = none) :
      Turned env profile n { outcome := .aborted nullGroupError }
  | full (config : JsonObject) (hports : portCount profile = 0) :
      Turned env profile n (.full profile config)
  | xrayFull (chain : BuiltChain) (config : JsonObject) (hports : portCount profile = 0)
      (hopens : env.Opens (xrayFullReq profile).hopIDs chain)
      (herror : (chain.effect env (xrayFullReq profile)).error = [])
      (hconfig : chain.config = some config) :
      Turned env profile n (.xrayFull env profile chain config)
  | chain (IDs : List ℤ) (singToXrayPort xrayToSingPort : ℤ) (chain : BuiltChain)
      (hIDs : env.testHops {} profile = some IDs)
      (hopens : env.Opens IDs chain)
      (herror : (chain.effect env (chainReq IDs n singToXrayPort xrayToSingPort)).error = []) :
      Turned env profile n (.chain env profile chain (chainReq IDs n singToXrayPort xrayToSingPort))

namespace Turned

variable {env : Program} {profile : Profile} {n : ℕ} {turn : Turn}

theorem idle_of (h : Turned env profile n turn) (hother : turn.outcome ≠ .tested) :
    turn.add = id := by
  cases h with
  | idle | aborted => rfl
  | full | xrayFull | chain => exact absurd rfl hother

theorem ports_le (h : Turned env profile n turn) : turn.ports ≤ portCount profile := by
  cases h with
  | idle _ _ _ _ hports => exact hports
  | aborted | full | xrayFull => exact Nat.zero_le _
  | chain => exact le_rfl

theorem ports_of_tested (h : Turned env profile n turn) (htested : turn.outcome = .tested) :
    turn.ports = portCount profile := by
  cases h with
  | idle _ _ _ hother =>
    obtain rfl | rfl := hother
    · cases htested
    · cases htested
  | aborted => cases htested
  | full _ hports | xrayFull _ _ hports => exact hports.symm
  | chain => rfl

theorem aborted_of (h : Turned env profile n turn) {error : Text}
    (haborted : turn.outcome = .aborted error) :
    error = nullGroupError ∧ env.GetGroup profile.gid = none := by
  cases h with
  | idle _ _ _ hother =>
    obtain rfl | rfl := hother
    · cases haborted
    · cases haborted
  | aborted hgroup => exact ⟨(Outcome.aborted.inj haborted).symm, hgroup⟩
  | full | xrayFull | chain => cases haborted

theorem sound (h : Turned env profile n turn) {ctx : BuildContext} (hsound : ctx.Sound)
    (res : BuildTestConfigResult) : (turn.add (ctx, res)).1.Sound := by
  cases h with
  | idle | aborted | full => exact hsound
  | xrayFull chain _ _ hopens herror =>
    obtain ⟨hforTest, hnone, hingress⟩ := hsound.apply herror (hopens.ingress _)
    exact ⟨hforTest, hnone, hingress⟩
  | chain _ _ _ chain _ hopens herror => exact hsound.apply herror (hopens.ingress _)

theorem error (h : Turned env profile n turn) (ctx : BuildContext) (res : BuildTestConfigResult) :
    (turn.add (ctx, res)).2.error = res.error := by
  cases h with
  | idle | aborted | full | xrayFull | chain => rfl

/-- No turn reads or changes the sections that were built before. -/
theorem coreConfig (h : Turned env profile n turn) (ctx : BuildContext)
    (res : BuildTestConfigResult) (core : CoreConfig) :
    turn.add (ctx.withCore core, res) =
      ((turn.add (ctx, res)).1.withCore core, (turn.add (ctx, res)).2) := by
  cases h with
  | idle | aborted | full | xrayFull | chain => rfl

theorem coreConfig_eq (h : Turned env profile n turn) (ctx : BuildContext)
    (res : BuildTestConfigResult) : (turn.add (ctx, res)).1.coreConfig = ctx.coreConfig := by
  cases h with
  | idle | aborted | full | xrayFull | chain => rfl

end Turned

namespace Program

variable {env : Program} {item : Tested}

/-- The turn of a profile, whatever the others have left. -/
def Takes (env : Program) (item : Tested) (n : ℕ) (rest : List ℤ) (turn : Turn) : Prop :=
  ∀ (number : ℕ → ℕ) (ports : List ℤ) (st : TestLoop), st.ctx.Sound →
    (turn.numbered = true → number st.suffix = n) →
    (ports.drop st.xrayPortIdx).take (portCount item.profile) =
      rest.take (portCount item.profile) →
    env.testItem {} number ports st item = (turn.outcome, st.take turn)

theorem portCount_of_isXrayFullConfig {profile : Profile} (hfull : profile.IsXrayFullConfig = true)
    (hplain : profile.type ≠ "chain".toList) : portCount profile = 0 := by
  obtain ⟨id, gid, type, outbound⟩ := profile
  cases outbound with
  | custom custom =>
    have htype : custom.type = CustomXrayFullConfig := by simpa [Profile.IsXrayFullConfig] using hfull
    have hxray : Profile.IsXray ⟨id, gid, type, .custom custom⟩ = false := by
      simp only [Profile.IsXray, htype]
      decide
    unfold portCount
    rw [if_neg hplain, hxray]
    rfl
  | chain list => exact absurd hfull (by simp [Profile.IsXrayFullConfig])
  | other outbound => exact absurd hfull (by simp [Profile.IsXrayFullConfig])

theorem portCount_of_isCustomFullConfig {profile : Profile}
    (hfull : profile.isCustomFullConfig = true) : portCount profile = 0 := by
  obtain ⟨id, gid, type, outbound⟩ := profile
  unfold Profile.isCustomFullConfig at hfull
  rw [decide_eq_true_eq] at hfull
  obtain ⟨htype, hcustom⟩ := hfull
  cases outbound with
  | custom custom =>
    have hkind : custom.type = CustomFullConfig := by simpa [Profile.Custom] using hcustom
    have hxray : Profile.IsXray ⟨id, gid, type, .custom custom⟩ = false := by
      simp only [Profile.IsXray, hkind]
      decide
    unfold portCount
    rw [htype, hxray]
    rfl
  | chain list => exact absurd hcustom (by simp [Profile.Custom])
  | other outbound => exact absurd hcustom (by simp [Profile.Custom])

theorem isXrayFullConfig_of_classify {profile : Profile}
    (hcandidate : env.classifyTestCandidate profile = .XrayFullConfig) :
    profile.IsXrayFullConfig = true := by
  unfold classifyTestCandidate at hcandidate
  split_ifs at hcandidate with hextra hfull hchain
  · exact hfull
  · split at hcandidate
    · exact absurd hcandidate (by simp)
    · split_ifs at hcandidate

/-- A chain of one profile has its config in the slot. -/
theorem Opens.config_of_single {profile : Profile} {chain : BuiltChain}
    (h : env.Opens [profile.id] chain) (hstored : env.getProfile profile.id = some profile)
    (hwarp : profile.id ≠ warpProfileID) (hfull : profile.IsXrayFullConfig = true) :
    ∃ config ≠ [], chain.config = some config := by
  obtain ⟨hops, hlisted, hsettled⟩ := h.listed
  have hhops : hops = [profile] := by
    refine List.map_injective_iff.mpr (Option.some_injective _) (hlisted.trans ?_)
    simp [hopOf, hwarp, hstored]
  rw [hhops] at hsettled
  obtain ⟨ent, rest, hent, hnil, hents⟩ := List.forall₂_cons_right_iff.mp hsettled
  rw [List.forall₂_nil_right_iff.mp hnil] at hents
  refine h.config ent (by simp [hents]) ?_
  obtain rfl | ⟨custom, port, auth, -, htype, -, rfl⟩ := hent
  · exact hfull
  · simpa [Profile.IsXrayFullConfig] using htype

/-- A custom Xray full config fails, or is put behind those before it. -/
theorem testXrayFullConfig_turn (hstored : env.getProfile item.profile.id = some item.profile)
    (hwarp : item.profile.id ≠ warpProfileID)
    (hcandidate : env.classifyTestCandidate item.profile = .XrayFullConfig) (n : ℕ)
    (rest : List ℤ) :
    ∃ turn : Turn, Turned env item.profile n turn ∧ env.Takes item n rest turn := by
  have hitem (number : ℕ → ℕ) (ports : List ℤ) (st : TestLoop) :
      env.testItem {} number ports st item = env.testXrayFullConfig {} st item := by
    simp only [testItem, hcandidate]
  have hfull := isXrayFullConfig_of_classify hcandidate
  by_cases hvalid : env.IsValid item.profile = false
  · refine ⟨_, .idle .failed false 0 (.inr rfl) (Nat.zero_le _), ?_⟩
    intro number ports st _ _ _
    rw [hitem, testXrayFullConfig, if_pos ⟨rfl, hvalid⟩]
    rfl
  · obtain ⟨e, hbuilt, happly⟩ := buildOutboundChain_effect env (xrayFullReq item.profile)
      item.chance
    have hrun (st : TestLoop) (hsound : st.ctx.Sound) : env.testXrayFullConfig {} st item =
        if e.error ≠ [] then (.failed, st)
        else if (!(st.ctx.apply e).isXrayNeeded || (st.ctx.apply e).xrayConfig.isEmpty) = true then
          (.failed, { st with ctx := st.ctx.apply e })
        else
          (.tested, { st with
            ctx := { st.ctx.apply e with xrayConfig := [], isXrayNeeded := false }
            res := { st.res.addTag (xrayFullReq item.profile).ingressTag item.profile.id with
              xrayFullConfigs := st.res.xrayFullConfigs ++ [(st.ctx.apply e).xrayConfig] } }) := by
      have hctx := happly st.ctx hsound.forTest hsound.error
      unfold xrayFullReq at hctx
      have herror : (st.ctx.apply e).error = e.error := by simp [hsound.error]
      rw [testXrayFullConfig, if_neg (fun h => hvalid h.2)]
      dsimp only
      rw [hctx, herror, if_pos rfl, BuildContext.rollback_apply _ hsound.error]
      rfl
    by_cases herror : e.error = []
    · obtain ⟨chain, hopens, rfl⟩ := hbuilt herror
      have hplain := hopens.plain item.profile.id (by simp [xrayFullReq]) hwarp item.profile hstored
      obtain ⟨config, hconfig, hslot⟩ := hopens.config_of_single hstored hwarp hfull
      refine ⟨_, .xrayFull chain config (portCount_of_isXrayFullConfig hfull hplain) hopens herror
        hslot, ?_⟩
      intro number ports st hsound _ _
      have hneeded : (st.ctx.apply (chain.effect env (xrayFullReq item.profile))).isXrayNeeded =
          true := by
        simp [BuildContext.apply, effect_config, hslot]
      have hheld : (st.ctx.apply (chain.effect env (xrayFullReq item.profile))).xrayConfig =
          config := by
        simp [BuildContext.apply, effect_config, hslot]
      rw [hitem, hrun st hsound, if_neg (by simp [herror]), hneeded, hheld,
        if_neg (by simp [hconfig])]
      rfl
    · refine ⟨_, .idle .failed false 0 (.inr rfl) (Nat.zero_le _), ?_⟩
      intro number ports st hsound _ _
      rw [hitem, hrun st hsound, if_pos herror]
      rfl

/-- The chain of a profile fails, or takes its number. -/
theorem testChain_turn {IDs : List ℤ} (hIDs : env.testHops {} item.profile = some IDs)
    (hitem : ∀ number ports st, env.testItem {} number ports st item =
      env.testChain {} number ports st item IDs) (n : ℕ) (rest : List ℤ) :
    ∃ turn : Turn, Turned env item.profile n turn ∧ env.Takes item n rest turn := by
  obtain ⟨toXray, hto⟩ : ∃ toXray, (testPorts rest item.profile 0).1 = toXray := ⟨_, rfl⟩
  obtain ⟨toSing, hfrom⟩ : ∃ toSing, (testPorts rest item.profile 0).2.1 = toSing := ⟨_, rfl⟩
  obtain ⟨e, hbuilt, happly⟩ := buildOutboundChain_effect env (chainReq IDs n toXray toSing)
    item.chance
  have hrun (number : ℕ → ℕ) (ports : List ℤ) (st : TestLoop) (hsound : st.ctx.Sound)
      (hnumber : number st.suffix = n)
      (hports : (ports.drop st.xrayPortIdx).take (portCount item.profile) =
        rest.take (portCount item.profile)) :
      env.testChain {} number ports st item IDs =
        if e.error ≠ [] then
          (.failed, { st with
            suffix := st.suffix + 1
            xrayPortIdx := st.xrayPortIdx + portCount item.profile })
        else
          (.tested, { st with
            ctx := st.ctx.apply e
            suffix := st.suffix + 1
            xrayPortIdx := st.xrayPortIdx + portCount item.profile
            res := st.res.addTag (chainReq IDs n toXray toSing).ingressTag item.profile.id }) := by
    have hdrawn : testPorts ports item.profile st.xrayPortIdx =
        (toXray, toSing, st.xrayPortIdx + portCount item.profile) := by
      have hfirst := testPorts_take (ports.drop st.xrayPortIdx) item.profile
      rw [hports, testPorts_take, hto, hfrom] at hfirst
      obtain ⟨hone, htwo⟩ := Prod.ext_iff.mp hfirst
      dsimp only at hone htwo
      rw [testPorts_eq, ← hone, ← htwo]
    have hctx := happly st.ctx hsound.forTest hsound.error
    unfold chainReq at hctx
    have herror : (st.ctx.apply e).error = e.error := by simp [hsound.error]
    unfold testChain
    rw [hdrawn]
    dsimp only
    rw [hnumber, hctx, herror, if_pos rfl, BuildContext.rollback_apply _ hsound.error]
    rfl
  by_cases herror : e.error = []
  · obtain ⟨chain, hopens, rfl⟩ := hbuilt herror
    refine ⟨_, .chain IDs toXray toSing chain hIDs hopens herror, ?_⟩
    intro number ports st hsound hnumber hports
    rw [hitem, hrun number ports st hsound (hnumber rfl) hports, if_neg (by simp [herror])]
    rfl
  · refine ⟨_, .idle .failed true (portCount item.profile) (.inr rfl) le_rfl, ?_⟩
    intro number ports st hsound hnumber hports
    rw [hitem, hrun number ports st hsound (hnumber rfl) hports, if_pos herror]
    rfl

/-- **A turn does not see what the others have left.** -/
theorem testItem_turn (hstored : env.getProfile item.profile.id = some item.profile)
    (hwarp : item.profile.id ≠ warpProfileID) (n : ℕ) (rest : List ℤ) :
    ∃ turn : Turn, Turned env item.profile n turn ∧ env.Takes item n rest turn := by
  cases hcandidate : env.classifyTestCandidate item.profile with
  | Skip =>
    refine ⟨_, .idle .skipped false 0 (.inl rfl) (Nat.zero_le _), ?_⟩
    intro number ports st _ _ _
    rw [testItem, hcandidate]
    rfl
  | XrayFullConfig => exact testXrayFullConfig_turn hstored hwarp hcandidate n rest
  | Build =>
    by_cases hvalid : env.IsValid item.profile = false
    · refine ⟨_, .idle .failed false 0 (.inr rfl) (Nat.zero_le _), ?_⟩
      intro number ports st _ _ _
      rw [testItem, hcandidate]
      dsimp only
      rw [if_pos ⟨rfl, hvalid⟩]
      rfl
    · have hcustom : ¬ (item.profile.type = "custom".toList ∧ item.profile.Custom.isNone = true) := by
        intro hnone
        exact hvalid (if_pos hnone)
      by_cases hconfig : item.profile.isCustomFullConfig = true
      · refine ⟨_, .full
          (insert ((item.profile.Custom.map Custom.config).getD []) "inbounds" (.arr []))
          (portCount_of_isCustomFullConfig hconfig), ?_⟩
        intro number ports st _ _ _
        rw [testItem, hcandidate]
        dsimp only
        rw [if_neg (fun h => hvalid h.2), if_neg hcustom, if_pos hconfig]
        rfl
      · have hitem (number : ℕ → ℕ) (ports : List ℤ) (st : TestLoop) :
            env.testItem {} number ports st item =
              (env.testHops {} item.profile).elim (.aborted nullGroupError, st)
                fun IDs => env.testChain {} number ports st item IDs := by
          rw [testItem, hcandidate]
          dsimp only
          rw [if_neg (fun h => hvalid h.2), if_neg hcustom, if_neg hconfig]
          cases env.testHops {} item.profile <;> rfl
        cases hhops : env.testHops {} item.profile with
        | none =>
          refine ⟨_, .aborted ?_, ?_⟩
          · unfold testHops at hhops
            cases hgroup : env.GetGroup item.profile.gid with
            | none => rfl
            | some group => simp [hgroup] at hhops
          · intro number ports st _ _ _
            rw [hitem, hhops]
            rfl
        | some IDs =>
          refine testChain_turn hhops (fun number ports st => ?_) n rest
          rw [hitem, hhops]
          rfl

end Program

end Throned.Configs.TestBuild
