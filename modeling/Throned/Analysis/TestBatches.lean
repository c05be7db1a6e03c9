import Mathlib.Order.Monotone.Basic
import Throned.Analysis.DnsAddresses
import Throned.Analysis.TestTurns

/-!
# A batch with profiles that fail

A profile that fails leaves nothing behind but a gap in the numbers, so the config of a batch is
the config of the profiles that could be built.
-/

set_option autoImplicit false

namespace Throned.Configs.TestBuild

open Throned.Library Throned.Engine
open Throned.Library.JsonObject

/-- The result with another DNS section. -/
def BuildTestConfigResult.withDns (res : BuildTestConfigResult) (dns : DnsSection) :
    BuildTestConfigResult :=
  { res with coreConfig := res.coreConfig.map fun config => { config with dns } }

namespace Program

variable {env : Program}

/-- A profile of the batch is the one in the store. -/
def Stored (env : Program) (item : Tested) : Prop :=
  env.getProfile item.profile.id = some item.profile ∧ item.profile.id ≠ warpProfileID

/-- The profiles that the run builds into its config. -/
def survivors (env : Program) (number : ℕ → ℕ) (xrayPorts : List ℤ) :
    TestLoop → List Tested → List Tested
  | _, [] => []
  | st, item :: items =>
    match env.testItem {} number xrayPorts st item with
    | (.aborted _, _) => []
    | (.tested, st) => item :: survivors env number xrayPorts st items
    | (.skipped, st) | (.failed, st) => survivors env number xrayPorts st items

section Steps

variable {number : ℕ → ℕ} {ports : List ℤ} {st st' : TestLoop} {item : Tested}
  {items : List Tested} {outcome : Outcome}

theorem testItems_cons_aborted {error : Text}
    (h : env.testItem {} number ports st item = (.aborted error, st')) :
    env.testItems {} number ports st (item :: items) =
      { st' with res := { st'.res with error } } := by
  simp only [testItems, h]

theorem testItems_cons (h : env.testItem {} number ports st item = (outcome, st'))
    (hgoes : ∀ error, outcome ≠ .aborted error) :
    env.testItems {} number ports st (item :: items) = env.testItems {} number ports st' items := by
  cases outcome with
  | aborted error => exact absurd rfl (hgoes error)
  | skipped | failed | tested => simp only [testItems, h]

theorem survivors_cons_tested (h : env.testItem {} number ports st item = (.tested, st')) :
    env.survivors number ports st (item :: items) =
      item :: env.survivors number ports st' items := by
  simp only [survivors, h]

theorem survivors_cons_idle (h : env.testItem {} number ports st item = (outcome, st'))
    (hidle : outcome = .skipped ∨ outcome = .failed) :
    env.survivors number ports st (item :: items) = env.survivors number ports st' items := by
  obtain rfl | rfl := hidle
  · simp only [survivors, h]
  · simp only [survivors, h]

end Steps

/-- How a run of the survivors alone matches the run of the whole batch. -/
structure Undisturbed (env : Program) (xrayPorts : List ℤ) (st : TestLoop) (items : List Tested)
    (number : ℕ → ℕ) (rest : List ℤ) : Prop where
  rising : StrictMono number
  first : st.suffix ≤ number 0
  drawn : rest.Sublist (xrayPorts.drop st.xrayPortIdx)
  enough : rest.length = xrayPortCount (env.survivors id xrayPorts st items)
  alone : ∀ (number' : ℕ → ℕ) (ports : List ℤ) (st' : TestLoop) (core : CoreConfig),
    st'.ctx = st.ctx.withCore core → st'.res = st.res → (∀ k, number' (st'.suffix + k) = number k) →
    ports.drop st'.xrayPortIdx = rest →
      let survivors := env.survivors id xrayPorts st items
      let run := env.testItems {} id xrayPorts st items
      (env.testItems {} number' ports st' survivors).ctx = run.ctx.withCore core ∧
        (env.testItems {} number' ports st' survivors).res = run.res ∧
        env.survivors number' ports st' survivors = survivors

/-- A number in front of a rising row of them. -/
def numberCons (n : ℕ) (number : ℕ → ℕ) : ℕ → ℕ
  | 0 => n
  | k + 1 => number k

theorem numberCons_one_add (n : ℕ) (number : ℕ → ℕ) (k : ℕ) :
    numberCons n number (1 + k) = number k := by
  rw [Nat.add_comm]
  rfl

theorem numberCons_strictMono {n : ℕ} {number : ℕ → ℕ} (h : StrictMono number)
    (hn : n < number 0) : StrictMono (numberCons n number) := by
  refine strictMono_nat_of_lt_succ fun k => ?_
  cases k with
  | zero => exact hn
  | succ k => exact h (Nat.lt_succ_self k)

variable {xrayPorts : List ℤ}

theorem Undisturbed.cons_idle {st : TestLoop} {item : Tested} {items : List Tested} {turn : Turn}
    {number : ℕ → ℕ} {rest : List ℤ}
    (h : env.Undisturbed xrayPorts (st.take turn) items number rest)
    (hitem : env.testItem {} id xrayPorts st item = (turn.outcome, st.take turn))
    (hidle : turn.outcome = .skipped ∨ turn.outcome = .failed) (hadd : turn.add = id) :
    env.Undisturbed xrayPorts st (item :: items) number rest := by
  have hgoes : ∀ error, turn.outcome ≠ .aborted error := by
    obtain hskipped | hfailed := hidle
    · simp [hskipped]
    · simp [hfailed]
  have hctx : (st.take turn).ctx = st.ctx := by simp [TestLoop.take, hadd]
  have hres : (st.take turn).res = st.res := by simp [TestLoop.take, hadd]
  constructor
  · exact h.rising
  · exact (Nat.le_add_right _ _).trans h.first
  · refine h.drawn.trans ?_
    simp only [TestLoop.take, ← List.drop_drop]
    exact List.drop_sublist _ _
  · rw [survivors_cons_idle hitem hidle]
    exact h.enough
  · intro number' ports st' core hctx' hres' hnumber hports
    rw [survivors_cons_idle hitem hidle, testItems_cons hitem hgoes]
    exact h.alone number' ports st' core (by rw [hctx', hctx]) (hres'.trans hres.symm) hnumber
      hports

theorem Undisturbed.cons_tested {st : TestLoop} {item : Tested} {items : List Tested}
    {turn : Turn} {number : ℕ → ℕ} {rest : List ℤ}
    (h : env.Undisturbed xrayPorts (st.take turn) items number rest)
    (hturn : Turned env item.profile st.suffix turn)
    (htakes : env.Takes item st.suffix (xrayPorts.drop st.xrayPortIdx) turn)
    (hsound : st.ctx.Sound) (htested : turn.outcome = .tested)
    (hports : portCount item.profile ≤ (xrayPorts.drop st.xrayPortIdx).length) :
    env.Undisturbed xrayPorts st (item :: items)
      (if turn.numbered = true then numberCons st.suffix number else number)
      ((xrayPorts.drop st.xrayPortIdx).take (portCount item.profile) ++ rest) := by
  have hitem := htakes id xrayPorts st hsound (fun _ => rfl) rfl
  have hcount := hturn.ports_of_tested htested
  have htaken : ((xrayPorts.drop st.xrayPortIdx).take (portCount item.profile)).length =
      portCount item.profile := List.length_take_of_le hports
  rw [htested] at hitem
  constructor
  · split
    · rename_i hnumbered
      have hfirst := h.first
      simp only [TestLoop.take, hnumbered, Bool.toNat_true] at hfirst
      exact numberCons_strictMono h.rising hfirst
    · exact h.rising
  · split
    · exact le_rfl
    · exact (Nat.le_add_right _ _).trans h.first
  · have hdrawn := h.drawn
    simp only [TestLoop.take, ← List.drop_drop, hcount] at hdrawn
    conv_rhs => rw [← List.take_append_drop (portCount item.profile)
      (xrayPorts.drop st.xrayPortIdx)]
    exact hdrawn.append_left _
  · rw [survivors_cons_tested hitem, xrayPortCount_cons, List.length_append, htaken, h.enough]
  · intro number' ports st' core hctx hres hnumber hdrop
    have hother := htakes number' ports st' (hctx ▸ ⟨hsound.forTest, hsound.error, hsound.ingress⟩)
      (fun hnumbered => by
        have hfirst := hnumber 0
        rwa [if_pos hnumbered] at hfirst)
      (by rw [hdrop, List.take_append_of_le_length (by rw [htaken]), List.take_take, min_self])
    rw [htested] at hother
    rw [survivors_cons_tested hitem, testItems_cons hitem (by simp)]
    dsimp only
    rw [testItems_cons hother (by simp), survivors_cons_tested hother]
    obtain ⟨hctx', hres', hsame⟩ := h.alone number' ports (st'.take turn) core
      (by simp only [TestLoop.take, hctx, hres, hturn.coreConfig])
      (by simp only [TestLoop.take, hctx, hres, hturn.coreConfig])
      (fun k => by
        simp only [TestLoop.take]
        by_cases hnumbered : turn.numbered = true
        · have hlater := hnumber (k + 1)
          rw [if_pos hnumbered] at hlater
          rw [hnumbered, Bool.toNat_true, Nat.add_assoc, Nat.add_comm 1 k]
          exact hlater
        · have hlater := hnumber k
          rw [if_neg hnumbered] at hlater
          rw [Bool.eq_false_of_not_eq_true hnumbered]
          exact hlater)
      (by
        simp only [TestLoop.take, ← List.drop_drop, hcount]
        rw [hdrop, List.drop_append_of_le_length (by rw [htaken]), List.drop_take, Nat.sub_self,
          List.take_zero, List.nil_append])
    exact ⟨hctx', hres', congrArg _ hsame⟩

variable (xrayPorts) in
theorem testItems_undisturbed (items : List Tested) (hstored : ∀ item ∈ items, env.Stored item) :
    ∀ st, st.ctx.Sound → st.res.error = [] →
      xrayPortCount items ≤ (xrayPorts.drop st.xrayPortIdx).length →
      let run := env.testItems {} id xrayPorts st items
      (run.res.error = nullGroupError ∧ ∃ item ∈ items, env.GetGroup item.profile.gid = none) ∨
        (run.ctx.Sound ∧ run.res.error = [] ∧ run.ctx.coreConfig = st.ctx.coreConfig ∧
          ∃ number rest, env.Undisturbed xrayPorts st items number rest) := by
  induction items with
  | nil =>
    intro st hsound herror _
    refine .inr ⟨hsound, herror, rfl, fun k => st.suffix + k, [], ?_⟩
    exact ⟨fun a b hab => Nat.add_lt_add_left hab _, le_rfl, List.nil_sublist _, rfl,
      fun number' ports st' core hctx hres _ _ => ⟨hctx, hres, rfl⟩⟩
  | cons item items ih =>
    intro st hsound herror hports
    rw [List.forall_mem_cons] at hstored
    rw [xrayPortCount_cons] at hports
    obtain ⟨turn, hturn, htakes⟩ := testItem_turn hstored.1.1 hstored.1.2 st.suffix
      (xrayPorts.drop st.xrayPortIdx)
    have hitem := htakes id xrayPorts st hsound (fun _ => rfl) rfl
    have hnext : (st.take turn).ctx.Sound := hturn.sound hsound st.res
    have hclean : (st.take turn).res.error = [] := (hturn.error _ _).trans herror
    have hleft : xrayPortCount items ≤ (xrayPorts.drop (st.take turn).xrayPortIdx).length := by
      have hle := hturn.ports_le
      rw [List.length_drop] at hports ⊢
      simp only [TestLoop.take]
      omega
    cases houtcome : turn.outcome with
    | aborted error =>
      rw [houtcome] at hitem
      obtain ⟨rfl, hgroup⟩ := hturn.aborted_of houtcome
      dsimp only
      rw [testItems_cons_aborted hitem]
      exact .inl ⟨rfl, item, List.mem_cons_self, hgroup⟩
    | skipped | failed =>
      have hidle : turn.outcome = .skipped ∨ turn.outcome = .failed := by simp [houtcome]
      have hadd := hturn.idle_of (by simp [houtcome])
      have hgoes : ∀ error, turn.outcome ≠ .aborted error := by simp [houtcome]
      dsimp only
      rw [testItems_cons hitem hgoes]
      obtain ⟨hfailed, other, hother, hgroup⟩ | ⟨hdone, hfine, hcore, number, rest, hrest⟩ :=
        ih hstored.2 _ hnext hclean hleft
      · exact .inl ⟨hfailed, other, List.mem_cons_of_mem _ hother, hgroup⟩
      · exact .inr ⟨hdone, hfine, hcore.trans (hturn.coreConfig_eq _ _), number, rest,
          hrest.cons_idle hitem hidle hadd⟩
    | tested =>
      have hgoes : ∀ error, turn.outcome ≠ .aborted error := by simp [houtcome]
      dsimp only
      rw [testItems_cons hitem hgoes]
      obtain ⟨hfailed, other, hother, hgroup⟩ | ⟨hdone, hfine, hcore, number, rest, hrest⟩ :=
        ih hstored.2 _ hnext hclean hleft
      · exact .inl ⟨hfailed, other, List.mem_cons_of_mem _ hother, hgroup⟩
      · exact .inr ⟨hdone, hfine, hcore.trans (hturn.coreConfig_eq _ _), _, _, hrest.cons_tested hturn htakes hsound houtcome
          (le_trans (Nat.le_add_right _ _) hports)⟩

/-! ## The whole build -/

theorem startTest_sound (items : List Tested) : (env.startTest items).ctx.Sound := ⟨rfl, rfl, rfl⟩

theorem startTest_withCore (items tested : List Tested) : (env.startTest tested).ctx =
    (env.startTest items).ctx.withCore (env.startTest tested).ctx.coreConfig := rfl

variable (env) in
/-- The one Xray instance is built whenever every bridge has its ingress. -/
theorem buildXrayConfig_error {ctx : BuildContext} (h : ctx.Sound) :
    (env.buildXrayConfig ctx).error = [] := by
  unfold buildXrayConfig
  split
  · exact h.error
  · rw [if_neg (by simp [h.ingress])]
    exact h.error

theorem buildXrayConfig_withCore (ctx : BuildContext) (core : CoreConfig) :
    env.buildXrayConfig (ctx.withCore core) = (env.buildXrayConfig ctx).withCore core := by
  unfold buildXrayConfig
  by_cases hempty : ctx.xrayOutbounds.isEmpty = true
  · rw [if_pos hempty]
    exact if_pos hempty
  · by_cases hcount : ctx.xrayIngressTags.length ≠ ctx.singToXrayBridges.length
    · rw [if_neg hempty, if_pos hcount]
      exact (if_neg hempty).trans (if_pos hcount)
    · rw [if_neg hempty, if_neg hcount]
      exact (if_neg hempty).trans (if_neg hcount)

variable (env) in
/-- What the end of a build makes of the lists does not depend on the DNS section. -/
theorem finishTest_withDns {st st' : TestLoop} (hsound : st.ctx.Sound) {core : CoreConfig}
    (hctx : st'.ctx = st.ctx.withCore core) (hres : st'.res = st.res)
    (hsections : core.sections = st.ctx.coreConfig.sections) :
    (env.finishTest st).res.error = st.res.error ∧
      (env.finishTest st).res =
        (env.finishTest st').res.withDns st.ctx.coreConfig.dns := by
  have hnone := env.buildXrayConfig_error hsound
  have hkept : (env.buildXrayConfig st.ctx).coreConfig = st.ctx.coreConfig := by
    unfold buildXrayConfig
    split_ifs <;> rfl
  have hother : env.buildXrayConfig st'.ctx = (env.buildXrayConfig st.ctx).withCore core := by
    rw [hctx, buildXrayConfig_withCore]
  have hnone' : (env.buildXrayConfig st'.ctx).error = [] := hother ▸ hnone
  unfold finishTest
  dsimp only
  rw [if_neg (not_not.mpr hnone), if_neg (not_not.mpr hnone'), hother]
  refine ⟨rfl, ?_⟩
  simp only [BuildTestConfigResult.withDns, BuildContext.withCore, hres, hkept, hsections,
    Option.map_some]

theorem nullGroupError_ne_nil : nullGroupError ≠ [] := by
  unfold nullGroupError
  simp

/-- **A profile that fails does not disturb the others.**  Unless a profile has no group, the config
of a batch is the config of the profiles that could be built, up to the gaps in the numbers of the
chains and the ports that were drawn for nothing.  The DNS section covers the whole batch. -/
theorem BuildTestConfig_survivors (env : Program) (xrayPorts : List ℤ) (items : List Tested)
    (hports : xrayPortCount items ≤ xrayPorts.length)
    (hstored : ∀ item ∈ items, env.Stored item) :
    let st := env.BuildTestConfig xrayPorts items
    let tested := env.survivors id xrayPorts (env.startTest items) items
    (st.res.error = nullGroupError ∧ ∃ item ∈ items, env.GetGroup item.profile.gid = none) ∨
      (st.res.error = [] ∧ ∃ number ports, StrictMono number ∧ ports.Sublist xrayPorts ∧
        ports.length = xrayPortCount tested ∧
        env.survivors number ports (env.startTest tested) tested = tested ∧
        st.res = (env.buildTestConfigImpl {} number ports tested).res.withDns
          (env.testDnsSection (env.echResolversOf (items.map Tested.profile)))) := by
  dsimp only
  have hstart := testItems_undisturbed xrayPorts items hstored
    (env.startTest items) (startTest_sound items) rfl (by simpa [startTest] using hports)
  dsimp only at hstart
  obtain ⟨herror, hgroup⟩ | ⟨hsound, herror, hcore, number, rest, hundisturbed⟩ := hstart
  · have hfailed : (env.testItems {} id xrayPorts (env.startTest items) items).res.error ≠ [] := by
      rw [herror]
      exact nullGroupError_ne_nil
    refine .inl ⟨?_, hgroup⟩
    have hwhole : env.BuildTestConfig xrayPorts items =
        env.testItems {} id xrayPorts (env.startTest items) items := if_pos hfailed
    rw [hwhole, herror]
  · obtain ⟨hctx, hres, hsame⟩ := hundisturbed.alone (numberCons 0 number) rest
      (env.startTest (env.survivors id xrayPorts (env.startTest items) items)) _
      (startTest_withCore items _) rfl (numberCons_one_add 0 number) rfl
    have hend := env.finishTest_withDns hsound hctx hres (by rw [hcore]; rfl)
    have hwhole : env.BuildTestConfig xrayPorts items =
        env.finishTest (env.testItems {} id xrayPorts (env.startTest items) items) :=
      if_neg (not_not.mpr herror)
    refine .inr ⟨?_, numberCons 0 number, rest, ?_, ?_, hundisturbed.enough, hsame, ?_⟩
    · rw [hwhole, hend.1, herror]
    · exact numberCons_strictMono hundisturbed.rising
        (lt_of_lt_of_le Nat.zero_lt_one hundisturbed.first)
    · exact hundisturbed.drawn
    · rw [hwhole, hend.2, hcore]
      unfold buildTestConfigImpl
      dsimp only
      rw [if_neg (not_not.mpr (hres ▸ herror))]
      rfl

/-! ## A batch with a profile that cannot be built -/

def sampleProfile (id : ℤ) (outbound : OtherOutbound) : Profile :=
  { id, type := "socks".toList, outbound := .other outbound }

/-- The first cannot be built; the chain goes over Xray and back. -/
def sampleProfiles : List Profile :=
  [sampleProfile 1 { Build := { error := "no server".toList } },
    sampleProfile 2 { Build := { object := [("type", .str "socks".toList)] } },
    sampleProfile 3
      { IsXray := true
        Build := {}
        BuildXray := { object := [("protocol", .str "vless".toList)] } },
    { id := 4, type := "chain".toList, outbound := .chain [2, 3, 2] }]

def sampleProgram : Program where
  qt := asciiText
  isAddress _ := false
  getProfile id := sampleProfiles.find? fun profile => profile.id = id
  warp := { Build := {} }
  warp_sing := rfl
  warpType := "wireguard".toList
  groups := [(0, { name := "sample".toList })]
  accepts _ := true
  dns :=
    { remote_dns_disable_ipv6 := false
      direct_dns_disable_ipv6 := false
      dns_final_out := []
      enable_dns_routing := true
      fake_dns := false }
  dnsServers := []
  legacyDnsObj _ := []
  directDomainResolver := [("server", .str dnsDirect)]
  sections := []
  SetXrayDialerProxy object tag := insert object "dialerProxy" (.str tag)
  UseXraySystemCA object := object
  xray_log_level := "warning".toList
  xrayOutboundDomainStrategy := []

def samplePorts : List ℤ := [2001, 2002, 2003]

def sampleBatch : List Tested :=
  sampleProfiles.map fun profile =>
    { profile
      chance :=
        { fullConfigPort := 0, ports := [], fullConfigAuth := [], singToXrayAuth := []
          xrayToSingAuth := [] } }

theorem sampleBatch_stored : ∀ item ∈ sampleBatch, sampleProgram.Stored item := by
  simp [sampleBatch, sampleProfiles, sampleProgram, Stored, sampleProfile, warpProfileID]

theorem sampleBatch_survivors :
    let st := sampleProgram.BuildTestConfig samplePorts sampleBatch
    let tested :=
      sampleProgram.survivors id samplePorts (sampleProgram.startTest sampleBatch) sampleBatch
    (st.res.error = nullGroupError ∧
        ∃ item ∈ sampleBatch, sampleProgram.GetGroup item.profile.gid = none) ∨
      (st.res.error = [] ∧ ∃ number ports, StrictMono number ∧ ports.Sublist samplePorts ∧
        ports.length = xrayPortCount tested ∧
        sampleProgram.survivors number ports (sampleProgram.startTest tested) tested = tested ∧
        st.res = (sampleProgram.buildTestConfigImpl {} number ports tested).res.withDns
          (sampleProgram.testDnsSection
            (sampleProgram.echResolversOf (sampleBatch.map Tested.profile)))) :=
  BuildTestConfig_survivors sampleProgram samplePorts sampleBatch (by decide) sampleBatch_stored

end Program

end Throned.Configs.TestBuild
