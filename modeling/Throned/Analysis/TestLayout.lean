import Throned.Analysis.ChainObjects
import Throned.Analysis.TestBatches
import Throned.Analysis.TestNumbering

/-!
# What a batch builds

The lists of a test config are the parts of the chains that were built, one behind the other, and
no two of them have the same tag prefix.
-/

set_option autoImplicit false

namespace Throned.Configs.TestBuild

open Throned.Library Throned.Engine

/-- A chain in the config of a batch. -/
structure BuiltItem where
  profile : Profile
  req : ChainBuildRequest
  chain : BuiltChain

/-- The chain was asked for its profile, under a number that was free. -/
inductive BuiltItem.Asked (env : Program) (b : BuiltItem) (low : ℕ) : Prop where
  | full (hreq : b.req = xrayFullReq b.profile)
  | numbered (IDs : List ℤ) (n : ℕ) (singToXrayPort xrayToSingPort : ℤ) (hn : low ≤ n)
      (hIDs : env.testHops {} b.profile = some IDs)
      (hreq : b.req = chainReq IDs n singToXrayPort xrayToSingPort)

namespace BuiltItem

variable {env : Program} {b b' : BuiltItem} {low : ℕ}

def effect (env : Program) (b : BuiltItem) : Effect := b.chain.effect env b.req

structure Built (env : Program) (low : ℕ) (b : BuiltItem) : Prop where
  asked : b.Asked env low
  opens : env.Opens b.req.hopIDs b.chain
  error : (b.effect env).error = []

theorem Built.mono {low' : ℕ} (h : Built env low' b) (hle : low ≤ low') : Built env low b where
  asked := by
    cases h.asked with
    | full hreq => exact .full hreq
    | numbered IDs n x y hn hIDs hreq => exact .numbered IDs n x y (hle.trans hn) hIDs hreq
  opens := h.opens
  error := h.error

/-- A test asks for a chain that is linked, under the tags of its prefix alone. -/
theorem Asked.plain (h : b.Asked env low) : b.req.link = true ∧ b.req.includeProxy = false ∧
    b.req.warpWrap = false ∧ b.req.startSuffix = 0 := by
  cases h with
  | full hreq =>
    rw [hreq]
    exact ⟨rfl, rfl, rfl, rfl⟩
  | numbered _ _ _ _ _ _ hreq =>
    rw [hreq]
    exact ⟨rfl, rfl, rfl, rfl⟩

theorem chainPrefix_ne_xrayFullPrefix (n id : ℤ) :
    Tests.hopTag Tests.testChainPrefix n ≠ Tests.hopTag Tests.testXrayFullPrefix id := by
  intro heq
  have hhead := congrArg List.head? heq
  exact absurd hhead (by
    unfold Tests.hopTag Tests.testChainPrefix Tests.testXrayFullPrefix
    simp)

/-- A custom Xray full config has the prefix of its profile. -/
theorem Asked.ne_full (h : b.Asked env low) {profile : Profile} (hid : profile.id ≠ b.profile.id) :
    (xrayFullReq profile).tagPrefix ≠ b.req.tagPrefix := by
  cases h with
  | full hreq =>
    rw [hreq]
    exact fun heq => hid (Tests.hopTag_index_injective _ heq)
  | numbered _ n _ _ _ _ hreq =>
    rw [hreq]
    exact fun heq => chainPrefix_ne_xrayFullPrefix _ _ heq.symm

/-- A number below stands for no chain that is asked later. -/
theorem Asked.ne_numbered (h : b.Asked env low) {IDs : List ℤ} {n : ℕ} {x y : ℤ} (hn : n < low) :
    (chainReq IDs n x y).tagPrefix ≠ b.req.tagPrefix := by
  cases h with
  | full hreq =>
    rw [hreq]
    exact chainPrefix_ne_xrayFullPrefix _ _
  | numbered _ m _ _ hm _ hreq =>
    rw [hreq]
    intro heq
    have hsame := Tests.hopTag_index_injective _ heq
    omega

end BuiltItem

namespace Program

variable {env : Program}

/-- What all the chains add. -/
def total (env : Program) (builts : List BuiltItem) : Effect :=
  builts.foldr (fun b e => b.effect env ++ e) {}

/-- The chains that a run of the batch has built. -/
structure Layout (env : Program) (items : List Tested) (st run : TestLoop)
    (builts : List BuiltItem) : Prop where
  built : ∀ b ∈ builts, b.Built env st.suffix
  from_items : ∀ b ∈ builts, ∃ item ∈ items, b.profile = item.profile
  prefixes : (builts.map fun b => b.req.tagPrefix).Nodup
  tags : run.res.tag2entID =
    (builts.map fun b => (b.req.ingressTag, b.profile.id)).reverse ++ st.res.tag2entID
  ctx : ∃ xrayConfig isXrayNeeded,
    run.ctx = { st.ctx.apply (env.total builts) with xrayConfig, isXrayNeeded }

section Runs

variable {number : ℕ → ℕ} {ports : List ℤ} {item : Tested} {items : List Tested}
  {st run : TestLoop} {builts : List BuiltItem} {turn : Turn}

theorem Layout.nil : env.Layout [] st st [] where
  built b hb := absurd hb List.not_mem_nil
  from_items b hb := absurd hb List.not_mem_nil
  prefixes := List.nodup_nil
  tags := rfl
  ctx := ⟨st.ctx.xrayConfig, st.ctx.isXrayNeeded, by simp [total]⟩

/-- A turn that leaves the context and the tags as they were. -/
theorem Layout.cons_keep (h : env.Layout items (st.take turn) run builts)
    (hctx : (st.take turn).ctx = st.ctx) (htags : (st.take turn).res.tag2entID = st.res.tag2entID) :
    env.Layout (item :: items) st run builts where
  built b hb := (h.built b hb).mono (Nat.le_add_right _ _)
  from_items b hb := by
    obtain ⟨other, hother, hprofile⟩ := h.from_items b hb
    exact ⟨other, List.mem_cons_of_mem _ hother, hprofile⟩
  prefixes := h.prefixes
  tags := by rw [h.tags, htags]
  ctx := by
    obtain ⟨xrayConfig, isXrayNeeded, hrun⟩ := h.ctx
    exact ⟨xrayConfig, isXrayNeeded, by rw [hrun, hctx]⟩

/-- A turn that builds a chain. -/
theorem Layout.cons_built {b : BuiltItem} (h : env.Layout items (st.take turn) run builts)
    (hprofile : b.profile = item.profile) (hbuilt : b.Built env st.suffix)
    (hsame : ∀ b' ∈ builts, b.req.tagPrefix ≠ b'.req.tagPrefix)
    (htags : (st.take turn).res.tag2entID =
      (b.req.ingressTag, b.profile.id) :: st.res.tag2entID)
    {slot : JsonObject} {needed : Bool}
    (hctx : (st.take turn).ctx =
      { st.ctx.apply (b.effect env) with xrayConfig := slot, isXrayNeeded := needed }) :
    env.Layout (item :: items) st run (b :: builts) where
  built := List.forall_mem_cons.mpr
    ⟨hbuilt, fun b' hb' => (h.built b' hb').mono (Nat.le_add_right _ _)⟩
  from_items := by
    refine List.forall_mem_cons.mpr ⟨⟨item, List.mem_cons_self, hprofile⟩, fun b' hb' => ?_⟩
    obtain ⟨other, hother, hprofile'⟩ := h.from_items b' hb'
    exact ⟨other, List.mem_cons_of_mem _ hother, hprofile'⟩
  prefixes := by
    rw [List.map_cons, List.nodup_cons]
    refine ⟨fun hmem => ?_, h.prefixes⟩
    obtain ⟨b', hb', heq⟩ := List.mem_map.mp hmem
    exact hsame b' hb' heq.symm
  tags := by simp [h.tags, htags]
  ctx := by
    obtain ⟨xrayConfig, isXrayNeeded, hrun⟩ := h.ctx
    refine ⟨xrayConfig, isXrayNeeded, ?_⟩
    rw [hrun, hctx]
    simp [total, BuildContext.apply]

/-- **A run lays its chains one behind the other**, with a prefix for each. -/
theorem testItems_layout (items : List Tested)
    (hstored : ∀ item ∈ items, env.Stored item)
    (hids : (items.map fun item => item.profile.id).Nodup) : ∀ st, st.ctx.Sound →
      (env.testItems {} id ports st items).res.error = [] →
      (env.testItems {} id ports st items).ctx.Sound ∧
      ∃ builts, env.Layout items st (env.testItems {} id ports st items) builts := by
  induction items with
  | nil => exact fun st hsound _ => ⟨hsound, [], .nil⟩
  | cons item items ih =>
    intro st hsound herror
    rw [List.forall_mem_cons] at hstored
    rw [List.map_cons, List.nodup_cons] at hids
    obtain ⟨turn, hturn, htakes⟩ := testItem_turn hstored.1.1 hstored.1.2 st.suffix
      (ports.drop st.xrayPortIdx)
    have hitem := htakes id ports st hsound (fun _ => rfl) rfl
    have hgoes : ∀ error, turn.outcome ≠ .aborted error := by
      intro error haborted
      rw [haborted] at hitem
      rw [testItems_cons_aborted hitem] at herror
      obtain ⟨rfl, -⟩ := hturn.aborted_of haborted
      exact absurd herror nullGroupError_ne_nil
    rw [testItems_cons hitem hgoes] at herror ⊢
    obtain ⟨hdone, builts, hlayout⟩ := ih hstored.2 hids.2 _ (hturn.sound hsound st.res) herror
    refine ⟨hdone, ?_⟩
    have hfree : ∀ b ∈ builts, b.Asked env (st.take turn).suffix ∧
        item.profile.id ≠ b.profile.id := by
      intro b hb
      refine ⟨(hlayout.built b hb).asked, fun heq => hids.1 ?_⟩
      obtain ⟨other, hother, hprofile⟩ := hlayout.from_items b hb
      exact List.mem_map.mpr ⟨other, hother, by rw [heq, hprofile]⟩
    cases hturn with
    | idle | aborted | full => exact ⟨builts, hlayout.cons_keep rfl rfl⟩
    | xrayFull chain config _ hopens hfine =>
      refine ⟨_, hlayout.cons_built (b := ⟨item.profile, xrayFullReq item.profile, chain⟩) rfl
        ⟨.full rfl, hopens, hfine⟩ (fun b hb => ?_) rfl rfl⟩
      exact (hfree b hb).1.ne_full (hfree b hb).2
    | chain IDs x y chain hIDs hopens hfine =>
      refine ⟨_, hlayout.cons_built (b := ⟨item.profile, chainReq IDs st.suffix x y, chain⟩) rfl
        ⟨.numbered IDs st.suffix x y le_rfl hIDs rfl, hopens, hfine⟩ (fun b hb => ?_) rfl rfl⟩
      exact (hfree b hb).1.ne_numbered (Nat.lt_succ_self _)

end Runs

end Program

end Throned.Configs.TestBuild
