import Throned.Model.TestBuild

/-!
# The hops of a chain

The list of hops keeps count of the changes between the cores.  With two of them at most it is
hops of sing-box, then of Xray, then of sing-box again.
-/

set_option autoImplicit false

namespace Throned.Configs.TestBuild

open Throned.Library Throned.Engine

/-! ## The parts -/

namespace SplitHops

def ents (parts : SplitHops) : List Profile := parts.initialSing ++ parts.xray ++ parts.tailingSing

end SplitHops

@[simp] theorem splitHops_append_singleton (ents : List Profile) (ent : Profile) :
    splitHops (ents ++ [ent]) = (splitHops ents).add ent := by
  simp [splitHops]

/-- The parts of every list: the second has the hops of Xray, the others have none. -/
theorem splitHops_isXray (ents : List Profile) :
    (∀ ent ∈ (splitHops ents).initialSing, ent.IsXray = false) ∧
      (∀ ent ∈ (splitHops ents).xray, ent.IsXray = true) ∧
      ∀ ent ∈ (splitHops ents).tailingSing, ent.IsXray = false := by
  induction ents using List.reverseRecOn with
  | nil => simp [splitHops]
  | append_singleton ents ent ih =>
    obtain ⟨hinitial, hxray, htailing⟩ := ih
    rw [splitHops_append_singleton]
    unfold SplitHops.add
    split
    · rename_i hent
      exact ⟨hinitial, List.forall_mem_append.mpr ⟨hxray, by simpa using hent⟩, htailing⟩
    · rename_i hent
      rw [Bool.not_eq_true] at hent
      split
      · exact ⟨List.forall_mem_append.mpr ⟨hinitial, by simpa using hent⟩, hxray, htailing⟩
      · exact ⟨hinitial, hxray, List.forall_mem_append.mpr ⟨htailing, by simpa using hent⟩⟩

/-! ## The loop over the ids -/

/-- How often the core has changed, with the parts so far. -/
inductive HopList.Phase (hops : HopList) : SplitHops → Prop where
  | leading (hcore : hops.inXray = false) (hcount : hops.scan.coreTransitions = 0)
      (hto : hops.singToXrayTransitioned = false) (hfrom : hops.xrayToSingTransitioned = false) :
      Phase hops ⟨hops.ents, [], []⟩
  | inside (initialSing xray : List Profile) (hxray : xray ≠ [])
      (hents : hops.ents = initialSing ++ xray)
      (hcore : hops.inXray = true) (hcount : hops.scan.coreTransitions = 1)
      (hto : hops.singToXrayTransitioned = true) (hfrom : hops.xrayToSingTransitioned = false) :
      Phase hops ⟨initialSing, xray, []⟩
  | back (parts : SplitHops) (hxray : parts.xray ≠ []) (htailing : parts.tailingSing ≠ [])
      (hents : hops.ents = parts.ents)
      (hcore : hops.inXray = false) (hcount : hops.scan.coreTransitions = 2)
      (hto : hops.singToXrayTransitioned = true) (hfrom : hops.xrayToSingTransitioned = true) :
      Phase hops parts
  | beyond (parts : SplitHops) (hxray : parts.xray ≠ []) (htailing : parts.tailingSing ≠ [])
      (hcount : 2 < hops.scan.coreTransitions)
      (hto : hops.singToXrayTransitioned = true) (hfrom : hops.xrayToSingTransitioned = true) :
      Phase hops parts

namespace HopList

variable {hops hops' : HopList} {parts : SplitHops}

/-- A hop more, behind `enter`. -/
structure Entered (hops hops' : HopList) (ent : Profile) : Prop where
  ents : hops'.ents = hops.ents ++ [ent]
  inXray : hops'.inXray = ent.IsXray
  singToXray : hops'.singToXrayTransitioned = (hops.enter ent.IsXray).singToXrayTransitioned
  xrayToSing : hops'.xrayToSingTransitioned = (hops.enter ent.IsXray).xrayToSingTransitioned
  count : hops'.scan.coreTransitions = (hops.enter ent.IsXray).scan.coreTransitions

theorem Phase.next {ent : Profile} (h : hops.Phase parts) (hnext : hops.Entered hops' ent) :
    hops'.Phase (parts.add ent) := by
  obtain ⟨hents', hcore', hto', hfrom', hcount'⟩ := hnext
  simp only [enter] at hto' hfrom' hcount'
  cases h with
  | leading hcore hcount hto hfrom =>
    cases hent : ent.IsXray with
    | false =>
      have hparts : SplitHops.add ⟨hops.ents, [], []⟩ ent = ⟨hops'.ents, [], []⟩ := by
        simp [SplitHops.add, hent, hents']
      rw [hparts]
      exact .leading (by simp [*]) (by simp [*]) (by simp [*]) (by simp [*])
    | true =>
      have hparts : SplitHops.add ⟨hops.ents, [], []⟩ ent = ⟨hops.ents, [ent], []⟩ := by
        simp [SplitHops.add, hent]
      rw [hparts]
      exact .inside _ _ (by simp) hents' (by simp [*]) (by simp [*]) (by simp [*]) (by simp [*])
  | inside initialSing xray hxray hents hcore hcount hto hfrom =>
    cases hent : ent.IsXray with
    | false =>
      have hparts : SplitHops.add ⟨initialSing, xray, []⟩ ent = ⟨initialSing, xray, [ent]⟩ := by
        simp [SplitHops.add, hent, hxray]
      rw [hparts]
      exact .back _ hxray (by simp) (by simp [SplitHops.ents, *]) (by simp [*]) (by simp [*])
        (by simp [*]) (by simp [*])
    | true =>
      have hparts : SplitHops.add ⟨initialSing, xray, []⟩ ent = ⟨initialSing, xray ++ [ent], []⟩ := by
        simp [SplitHops.add, hent]
      rw [hparts]
      exact .inside _ _ (by simp) (by simp [*]) (by simp [*]) (by simp [*]) (by simp [*])
        (by simp [*])
  | back parts hxray htailing hents hcore hcount hto hfrom =>
    cases hent : ent.IsXray with
    | false =>
      have hparts : parts.add ent =
          { parts with tailingSing := parts.tailingSing ++ [ent] } := by
        simp [SplitHops.add, hent, hxray]
      rw [hparts]
      exact .back _ hxray (by simp) (by simp [SplitHops.ents, *]) (by simp [*]) (by simp [*])
        (by simp [*]) (by simp [*])
    | true =>
      have hparts : parts.add ent = { parts with xray := parts.xray ++ [ent] } := by
        simp [SplitHops.add, hent]
      rw [hparts]
      exact .beyond _ (by simp) htailing (by simp [*]) (by simp [*]) (by simp [*])
  | beyond parts hxray htailing hcount hto hfrom =>
    have hmore : 2 < hops'.scan.coreTransitions := by
      rw [hcount']
      omega
    cases hent : ent.IsXray with
    | false =>
      have hparts : parts.add ent =
          { parts with tailingSing := parts.tailingSing ++ [ent] } := by
        simp [SplitHops.add, hent, hxray]
      rw [hparts]
      exact .beyond _ hxray (by simp) hmore (by simp [*]) (by simp [*])
    | true =>
      have hparts : parts.add ent = { parts with xray := parts.xray ++ [ent] } := by
        simp [SplitHops.add, hent]
      rw [hparts]
      exact .beyond _ (by simp) htailing hmore (by simp [*]) (by simp [*])

theorem Phase.start : Phase {} (splitHops []) := .leading rfl rfl rfl rfl

/-- The end of the list changes the count of the hops alone. -/
theorem Phase.finish (h : hops.Phase parts) : hops.finish.Phase parts := by
  cases h with
  | leading hcore hcount hto hfrom => exact .leading hcore hcount hto hfrom
  | inside _ _ hxray hents hcore hcount hto hfrom =>
    exact .inside _ _ hxray hents hcore hcount hto hfrom
  | back parts hxray htailing hents hcore hcount hto hfrom =>
    exact .back parts hxray htailing hents hcore hcount hto hfrom
  | beyond parts hxray htailing hcount hto hfrom =>
    exact .beyond parts hxray htailing hcount hto hfrom

theorem Phase.singToXray (h : hops.Phase parts) :
    hops.singToXrayTransitioned = !parts.xray.isEmpty := by
  cases h <;> simp_all

theorem Phase.xrayToSing (h : hops.Phase parts) :
    hops.xrayToSingTransitioned = !parts.tailingSing.isEmpty := by
  cases h <;> simp_all

theorem Phase.tailing (h : hops.Phase parts) (hxray : parts.xray = []) :
    parts.tailingSing = [] := by
  cases h <;> simp_all

/-- **Two changes of the core at most leave the hops in their order.** -/
theorem Phase.ents (h : hops.Phase parts) (hcount : hops.scan.coreTransitions ≤ 2) :
    hops.ents = parts.ents := by
  cases h with
  | leading => simp [SplitHops.ents]
  | inside _ _ _ hents => simpa [SplitHops.ents] using hents
  | back _ _ _ hents => exact hents
  | beyond _ _ _ hmore => omega

end HopList

theorem chainScanError_transitions {scan : chainScan} (h : chainScanError scan = []) :
    scan.coreTransitions ≤ 2 := by
  unfold chainScanError at h
  by_contra hmore
  have hmany : scan.coreTransitions > 2 := by omega
  simp only [hmany, if_true] at h
  split_ifs at h <;> exact absurd h (by simp)

theorem append_ne_nil_of_left {a b : Text} (h : a ≠ []) : a ++ b ≠ [] := by
  simp [h]

namespace Program

variable {env : Program}

theorem missingHopError_ne_nil (id : ℤ) : env.missingHopError id ≠ [] := by
  unfold missingHopError
  dsimp only
  cases hnamed : (0 :: env.groups.map Prod.fst).findSome? _ with
  | none => simp
  | some text =>
    obtain ⟨gid, -, htext⟩ := List.exists_of_findSome?_eq_some hnamed
    split at htext
    · exact absurd htext (by simp)
    · split_ifs at htext
      · simp [← Option.some.inj htext]
      · simp [← Option.some.inj htext]

variable (env) in
/-- The hop of an id. -/
def hopOf (id : ℤ) : Option Profile :=
  if id = warpProfileID then some env.getWarpProfile else env.getProfile id

theorem getWarpProfile_isXray : env.getWarpProfile.IsXray = false := env.warp_sing

/-- **A list of hops without an error** has the hop of every id, in the order of the cores. -/
structure Listed (env : Program) (ids : List ℤ) (hops : HopList) : Prop where
  phase : hops.Phase (splitHops hops.ents)
  ents : hops.ents.map some = ids.map env.hopOf
  ordered : hops.ents = (splitHops hops.ents).ents
  plain : ∀ id ∈ ids, id ≠ warpProfileID → ∀ ent, env.getProfile id = some ent →
    ent.type ≠ "chain".toList

theorem listHops_phase (ids : List ℤ) : ∀ hops : HopList,
    hops.Phase (splitHops hops.ents) → (env.listHops hops ids).error = [] →
      let result := env.listHops hops ids
      result.Phase (splitHops result.ents) ∧
        result.ents.map some = hops.ents.map some ++ ids.map env.hopOf ∧
        result.scan.coreTransitions ≤ 2 ∧
        ∀ id ∈ ids, id ≠ warpProfileID → ∀ ent, env.getProfile id = some ent →
          ent.type ≠ "chain".toList := by
  induction ids with
  | nil =>
    intro hops hphase herror
    exact ⟨hphase.finish, by simp [listHops, HopList.finish], chainScanError_transitions herror,
      by simp⟩
  | cons id ids ih =>
    intro hops hphase herror
    unfold listHops at herror ⊢
    by_cases hwarp : id = warpProfileID
    · rw [if_pos hwarp] at herror ⊢
      have hentered : hops.Entered
          { hops.enter false with ents := hops.ents ++ [env.getWarpProfile] } env.getWarpProfile :=
        ⟨rfl, by rw [getWarpProfile_isXray]; rfl, by rw [getWarpProfile_isXray],
          by rw [getWarpProfile_isXray], by rw [getWarpProfile_isXray]⟩
      have hnext := hphase.next hentered
      rw [← splitHops_append_singleton] at hnext
      obtain ⟨hdone, hents, hcount, hplain⟩ := ih _ hnext herror
      refine ⟨hdone, hents.trans ?_, hcount, ?_⟩
      · simp [hopOf, hwarp]
      · exact List.forall_mem_cons.mpr ⟨fun hother => absurd hwarp hother, hplain⟩
    · rw [if_neg hwarp] at herror ⊢
      cases hstored : env.getProfile id with
      | none =>
        rw [hstored] at herror
        exact absurd herror (missingHopError_ne_nil id)
      | some ent =>
        rw [hstored] at herror
        dsimp only at herror ⊢
        have hchain : ent.type ≠ "chain".toList := by
          intro hchain
          rw [if_pos hchain] at herror
          exact absurd herror (by simp)
        have hselector : ent.type ≠ "autoselector".toList := by
          intro hselector
          rw [if_neg hchain, if_pos hselector] at herror
          exact absurd herror (by simp)
        rw [if_neg hchain, if_neg hselector] at herror ⊢
        have hentered : hops.Entered ((hops.enter ent.IsXray).addHop ent) ent :=
          ⟨rfl, rfl, rfl, rfl, rfl⟩
        have hnext := hphase.next hentered
        rw [← splitHops_append_singleton] at hnext
        obtain ⟨hdone, hents, hcount, hplain⟩ := ih _ hnext herror
        refine ⟨hdone, hents.trans ?_, hcount, ?_⟩
        · simp [HopList.addHop, HopList.enter, hopOf, hwarp, hstored]
        · refine List.forall_mem_cons.mpr ⟨fun _ other hother => ?_, hplain⟩
          rw [hstored] at hother
          exact Option.some.inj hother ▸ hchain

theorem entIDListtoEntList_listed {ids : List ℤ}
    (herror : (env.entIDListtoEntList ids).error = []) :
    env.Listed ids (env.entIDListtoEntList ids) := by
  obtain ⟨hphase, hents, hcount, hplain⟩ := listHops_phase ids {} .start herror
  exact ⟨hphase, hents, hphase.ents hcount, hplain⟩

end Program

end Throned.Configs.TestBuild
