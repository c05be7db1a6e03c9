import Throned.Analysis.PlanMembers
import Mathlib.Tactic.Linarith

/-!
# Plans of auto selectors

The pool of a plan is the persisted one as far as it is eligible, then the newcomers by rank.  A
ranking that stores the sorted members is what the next plan takes.
-/

set_option autoImplicit false

namespace Throned.Configs

open Throned.Library

/-! ## Ranks -/

theorem byLatency_iff (a b : ℤ) :
    byLatency a b = true ↔
      latencyRank a < latencyRank b ∨ (latencyRank a = 0 ∧ latencyRank b = 0 ∧ a < b) := by
  unfold byLatency
  dsimp only
  by_cases hrank : latencyRank a = latencyRank b
  · rw [if_neg (not_not.mpr hrank)]
    by_cases hzero : latencyRank a = 0
    · rw [if_pos hzero, decide_eq_true_iff, ← hrank, hzero]
      simp
    · rw [if_neg hzero, ← hrank]
      simp [hzero]
  · rw [if_pos hrank, decide_eq_true_iff]
    constructor
    · exact .inl
    · rintro (hlt | ⟨ha, hb, -⟩)
      · exact hlt
      · exact absurd (ha.trans hb.symm) hrank

/-- **Working by latency, then untested, then failed** is a strict weak order. -/
theorem byLatency_weakOrder : WeakOrder byLatency where
  asymm := by
    intro a b h
    rw [← Bool.not_eq_true, byLatency_iff]
    rw [byLatency_iff] at h
    omega
  trans := by
    intro a b c hab hbc
    rw [← Bool.not_eq_true, byLatency_iff] at *
    omega

section Ranks

variable (repos : Repositories) (selector : AutoSelector)

/-- The order of members by their results. -/
def byRank (now left right : ℤ) : Bool :=
  byLatency (effectiveLatencyOf repos left selector now)
    (effectiveLatencyOf repos right selector now)

theorem byRank_weakOrder (now : ℤ) : WeakOrder (byRank repos selector now) :=
  byLatency_weakOrder.comap fun id => effectiveLatencyOf repos id selector now

theorem sortByLatency_trusted (ids : List ℤ) (now : ℤ) :
    sortByLatency repos ids selector now [] = stableSort (byRank repos selector now) ids := rfl

/-- The order of a plan, before it is cut. -/
theorem orderMembers_eq (members persistedPool : List ℤ) (now : ℤ) :
    orderMembers repos selector members persistedPool now =
      (persistedPool.filter fun id => id ∈ members).eraseDups ++
        stableSort (byRank repos selector now)
          (members.filter fun id => id ∉ persistedPool) := by
  unfold orderMembers
  dsimp only
  rw [placedMembers_eq, sortByLatency_trusted]
  refine congrArg _ (congrArg _ (List.filter_congr fun id hid => ?_))
  rw [decide_eq_decide, List.mem_eraseDups, List.mem_filter]
  simp [hid]

theorem nodup_orderMembers {members : List ℤ} (hmembers : members.Nodup)
    (persistedPool : List ℤ) (now : ℤ) :
    (orderMembers repos selector members persistedPool now).Nodup := by
  have hperm := List.mergeSort_perm (members.filter fun id => id ∉ persistedPool)
    fun a b => !byRank repos selector now b a
  rw [orderMembers_eq, List.nodup_append]
  refine ⟨nodup_eraseDups _, hperm.nodup_iff.mpr (hmembers.filter _), ?_⟩
  rintro id hplaced _ hnew rfl
  have hpersisted := List.mem_of_mem_filter (List.mem_eraseDups.mp hplaced)
  have hnot := (List.mem_filter.mp (hperm.mem_iff.mp hnew)).2
  exact of_decide_eq_true hnot hpersisted

theorem mem_orderMembers {members persistedPool : List ℤ} {now id : ℤ} :
    id ∈ orderMembers repos selector members persistedPool now ↔ id ∈ members := by
  have hperm := List.mergeSort_perm (members.filter fun id => id ∉ persistedPool)
    fun a b => !byRank repos selector now b a
  have hsorted : id ∈ stableSort (byRank repos selector now)
      (members.filter fun id => id ∉ persistedPool) ↔ id ∈ members ∧ id ∉ persistedPool := by
    rw [stableSort, hperm.mem_iff, List.mem_filter, decide_eq_true_iff]
  rw [orderMembers_eq, List.mem_append, List.mem_eraseDups, List.mem_filter, hsorted,
    decide_eq_true_iff]
  tauto

end Ranks

/-! ## Prefixes -/

theorem midFront_of_longer {ids : List ℤ} {n : ℤ} (hn : 0 ≤ n) :
    (if (ids.length : ℤ) > n then midFront ids n else ids) = ids.take n.toNat := by
  split
  · rw [midFront, if_neg (by omega)]
  · rw [List.take_of_length_le (by omega)]

theorem midFront_min {ids : List ℤ} {n : ℤ} (hn : 0 ≤ n) :
    midFront ids (min (ids.length : ℤ) n) = ids.take n.toNat := by
  rw [midFront, if_neg (by omega)]
  rcases le_total (ids.length : ℤ) n with h | h
  · rw [min_eq_left h, Int.toNat_natCast, List.take_length, List.take_of_length_le (by omega)]
  · rw [min_eq_right h]

/-! ## The plan -/

section Plan

variable (qt : QtTexts) (repos : Repositories) (selector : AutoSelector)

/-- The eligible members in the order of the groups. -/
def members (self now : ℤ) : List ℤ :=
  (membersListed repos selector self).filter (eligible qt repos selector self now)

theorem nodup_members (self now : ℤ) : (members qt repos selector self now).Nodup :=
  (nodup_membersListed repos selector self).filter _

theorem mem_members {self now id : ℤ} :
    id ∈ members qt repos selector self now ↔ eligible qt repos selector self now id = true := by
  unfold members
  rw [List.mem_filter, and_iff_right_iff_imp]
  intro heligible
  have hpasses : passesUntested qt repos selector self now id = true := by
    unfold eligible at heligible
    split at heligible
    · exact passesUntested_of_passes qt repos selector heligible
    · exact heligible
  exact mem_membersListed_of_passesUntested qt repos selector hpasses

theorem members_eq_nil {self now : ℤ} (h : members qt repos selector self now = []) (id : ℤ) :
    passesUntested qt repos selector self now id = false := by
  rw [← Bool.not_eq_true]
  intro hpasses
  obtain ⟨j, -, hj⟩ := exists_eligible qt repos selector hpasses
  have hmem := (mem_members qt repos selector).mpr hj
  rw [h] at hmem
  exact List.not_mem_nil hmem

/-- What `eligibleMembers` leaves of a plan. -/
theorem eligibleMembers_kept (self now : ℤ) (plan : AutoSelectorPlan) :
    (eligibleMembers qt repos selector self now plan).2.pool = plan.pool ∧
      (eligibleMembers qt repos selector self now plan).2.build = plan.build ∧
        (eligibleMembers qt repos selector self now plan).2.eligible = plan.eligible := by
  unfold eligibleMembers
  split
  · exact ⟨rfl, rfl, rfl⟩
  · dsimp only
    split
    · exact ⟨rfl, rfl, rfl⟩
    · exact ⟨rfl, rfl, rfl⟩

/-- An error leaves no members. -/
theorem eligibleMembers_error (self now : ℤ) {plan : AutoSelectorPlan} (hplan : plan.error = "")
    (h : (eligibleMembers qt repos selector self now plan).2.error ≠ "") :
    (eligibleMembers qt repos selector self now plan).1 = [] := by
  unfold eligibleMembers at h ⊢
  by_cases hgids : selector.gids.isEmpty = true
  · rw [if_pos hgids]
  · rw [if_neg hgids] at h ⊢
    dsimp only at h ⊢
    by_cases hgroups : (selector.gids.filterMap repos.GetGroup).isEmpty = true
    · rw [if_pos hgroups]
    · rw [if_neg hgroups] at h
      exact absurd hplan h

/-- **What a plan holds.** -/
structure Planned (own eligibleNow orderNow : ℤ) (plan : AutoSelectorPlan) : Prop where
  pool : plan.pool = (orderMembers repos selector (members qt repos selector own eligibleNow)
    selector.pool orderNow).take selector.poolCap.toNat
  build : plan.build = plan.pool.take selector.buildLimit.toNat
  eligible : plan.eligible = (members qt repos selector own eligibleNow).length
  counts : plan.membersInGroups = plan.eligible + plan.skippedCount

theorem orderMembers_nil (persistedPool : List ℤ) (now : ℤ) :
    orderMembers repos selector [] persistedPool now = [] := by
  rw [orderMembers_eq]
  simp [stableSort]

theorem planned (self eligibleNow orderNow : ℤ) (hcap : 0 ≤ selector.poolCap)
    (hlimit : 0 ≤ selector.buildLimit) :
    Planned qt repos selector self eligibleNow orderNow
      (planNormalized qt repos self selector eligibleNow orderNow) := by
  have hfst := eligibleMembers_fst qt repos selector self eligibleNow
    { poolCapUsed := selector.poolCap, buildLimitUsed := selector.buildLimit }
  have hcounts := @eligibleMembers_counts qt repos selector self eligibleNow
    { poolCapUsed := selector.poolCap, buildLimitUsed := selector.buildLimit } rfl rfl
  have herror := @eligibleMembers_error qt repos selector self eligibleNow
    { poolCapUsed := selector.poolCap, buildLimitUsed := selector.buildLimit } rfl
  obtain ⟨hpool, hbuild, heligible⟩ := eligibleMembers_kept qt repos selector self eligibleNow
    { poolCapUsed := selector.poolCap, buildLimitUsed := selector.buildLimit }
  change _ = members qt repos selector self eligibleNow at hfst
  unfold planNormalized
  dsimp only
  generalize eligibleMembers qt repos selector self eligibleNow _ = found at *
  obtain ⟨found, plan⟩ := found
  dsimp only at *
  subst hfst
  by_cases hfailed : plan.error ≠ ""
  · have hnil := herror hfailed
    rw [if_pos hfailed]
    rw [hnil] at hcounts
    refine ⟨?_, ?_, ?_, ?_⟩
    · rw [hnil, orderMembers_nil, List.take_nil]
      exact hpool
    · rw [hpool, hbuild, List.take_nil]
    · rw [hnil]
      exact heligible
    · rw [heligible]
      exact hcounts
  rw [if_neg hfailed]
  by_cases hempty : (members qt repos selector self eligibleNow).isEmpty = true
  · have hnil := List.isEmpty_iff.mp hempty
    rw [if_pos hempty]
    refine ⟨?_, ?_, rfl, hcounts⟩
    · rw [hnil, orderMembers_nil, List.take_nil]
      exact hpool
    · change plan.build = plan.pool.take selector.buildLimit.toNat
      rw [hpool, hbuild, List.take_nil]
  · rw [if_neg hempty]
    exact ⟨midFront_of_longer hcap, midFront_min hlimit, rfl, hcounts⟩

end Plan

/-! ## Rankings -/

section Rerank

variable (qt : QtTexts) (repos : Repositories) (selector : AutoSelector)

/-- Between two readings of the clock no result has become too old. -/
def SameFreshness (now later : ℤ) : Prop :=
  ∀ id, hasFreshResult (repos.GetProfile id) selector now =
    hasFreshResult (repos.GetProfile id) selector later

variable {now later : ℤ}

theorem effectiveLatencyOf_later (h : SameFreshness repos selector now later) (id : ℤ) :
    effectiveLatencyOf repos id selector now = effectiveLatencyOf repos id selector later := by
  unfold effectiveLatencyOf effectiveLatency
  rw [h id]

theorem byRank_later (h : SameFreshness repos selector now later) :
    byRank repos selector now = byRank repos selector later := by
  funext left right
  unfold byRank
  rw [effectiveLatencyOf_later repos selector h left, effectiveLatencyOf_later repos selector h right]

theorem verdictOn_later (h : SameFreshness repos selector now later) (self id : ℤ) :
    verdictOn qt repos selector self now id = verdictOn qt repos selector self later id := by
  have heligibility : ∀ id filters,
      eligibilityOf qt (repos.GetProfile id) selector filters now =
        eligibilityOf qt (repos.GetProfile id) selector filters later := by
    intro id filters
    have hfresh := h id
    unfold eligibilityOf
    cases hmember : repos.GetProfile id with
    | none => rfl
    | some profile =>
      rw [hmember] at hfresh
      simp only [hfresh]
  unfold verdictOn verdict
  simp only [heligibility]

theorem members_later (h : SameFreshness repos selector now later) (self : ℤ) :
    members qt repos selector self now = members qt repos selector self later := by
  have hpasses : passes qt repos selector self now = passes qt repos selector self later := by
    funext id
    unfold passes
    rw [verdictOn_later qt repos selector h]
  have huntested : passesUntested qt repos selector self now =
      passesUntested qt repos selector self later := by
    funext id
    unfold passesUntested passes
    rw [verdictOn_later qt repos { selector with excludeUnavailable := false } h]
  unfold members
  refine List.filter_congr fun id _ => ?_
  unfold eligible
  rw [hpasses, huntested]

/-- A pool that the sorted members begin with is what the order begins with. -/
theorem take_orderMembers {found sorted : List ℤ} (hfound : found.Nodup)
    (hsorted : sorted.Perm found) (cap : ℕ) (now : ℤ) :
    (orderMembers repos selector found (sorted.take cap) now).take cap = sorted.take cap := by
  have hnodup : (sorted.take cap).Nodup := (hsorted.nodup_iff.mpr hfound).sublist
    (List.take_sublist cap sorted)
  have hplaced : (sorted.take cap).filter (fun id => id ∈ found) = sorted.take cap := by
    refine List.filter_eq_self.mpr fun id hid => ?_
    exact decide_eq_true (hsorted.mem_iff.mp (List.mem_of_mem_take hid))
  rw [orderMembers_eq, hplaced, eraseDups_of_nodup hnodup]
  rcases le_total sorted.length cap with hshort | hlong
  · -- all are stored, so there are no newcomers
    have hnew : found.filter (fun id => id ∉ sorted.take cap) = [] := by
      refine List.filter_eq_nil_iff.mpr fun id hid => ?_
      rw [List.take_of_length_le hshort, decide_eq_true_iff, not_not]
      exact hsorted.mem_iff.mpr hid
    rw [hnew, stableSort, List.mergeSort_nil, List.append_nil, List.take_take, min_self]
  · exact List.take_left' (List.length_take_of_le hlong)

/-- **A ranking** stores the sorted members as far as they fit. -/
theorem RerankAutoSelectorPool_eq (self eligibleNow orderNow rankedNow : ℤ)
    (hcap : 0 ≤ selector.poolCap) :
    RerankAutoSelectorPool qt repos (some ⟨self, some selector⟩) [] eligibleNow orderNow rankedNow =
      let stored := (stableSort (byRank repos selector orderNow)
        (members qt repos selector self eligibleNow)).take selector.poolCap.toNat
      (stored, some ⟨self, some
        { selector with pool := stored, poolRankedAt := rankedNow }⟩) := by
  have hstored := @midFront_of_longer
    (stableSort (byRank repos selector orderNow) (members qt repos selector self eligibleNow))
    selector.poolCap hcap
  unfold RerankAutoSelectorPool
  dsimp only
  rw [eligibleMembers_fst, sortByLatency_trusted]
  unfold members at hstored ⊢
  rw [hstored]

end Rerank

theorem bounds_Normalize (s : AutoSelector) :
    1 ≤ s.Normalize.poolCap ∧ 1 ≤ s.Normalize.buildLimit :=
  ⟨(normalized_Normalize s).poolCap.1, (normalized_Normalize s).buildLimit.1⟩

/-! ## Guarantees -/

section Guarantees

variable (qt : QtTexts) (repos : Repositories)

/-- Right after a ranking with trusted results the plan is the stored pool, sorted by rank. -/
theorem planned_after_rerank (self : ℤ) {selector : AutoSelector}
    (hnormal : selector.Normalize = selector) {eligibleNow orderNow rankedNow planNow laterNow : ℤ}
    (horder : SameFreshness repos selector eligibleNow orderNow)
    (hplan : SameFreshness repos selector eligibleNow planNow) :
    let (stored, saved) := RerankAutoSelectorPool qt repos (some ⟨self, some selector⟩) []
      eligibleNow orderNow rankedNow
    (PlanAutoSelector qt repos saved planNow laterNow).1.pool = stored ∧
      InOrder (byRank repos selector eligibleNow) stored := by
  obtain ⟨hbound, hlimit⟩ := bounds_Normalize selector
  rw [hnormal] at hbound hlimit
  rw [RerankAutoSelectorPool_eq qt repos selector self _ _ _ (by omega)]
  dsimp only
  constructor
  · generalize hstored : (stableSort (byRank repos selector orderNow)
      (members qt repos selector self eligibleNow)).take selector.poolCap.toNat = stored
    have hplanned := planned qt repos
      { selector with pool := stored, poolRankedAt := rankedNow } self planNow laterNow
      (by dsimp only; omega) (by dsimp only; omega)
    have hagain : { selector with pool := stored, poolRankedAt := rankedNow }.Normalize =
        { selector with pool := stored, poolRankedAt := rankedNow } := by
      rw [AutoSelector.Normalize_pool, hnormal]
    unfold PlanAutoSelector
    dsimp only
    rw [hagain, hplanned.pool]
    change (orderMembers repos selector (members qt repos selector self planNow) stored
      laterNow).take selector.poolCap.toNat = stored
    rw [← members_later qt repos selector hplan, ← hstored]
    exact take_orderMembers repos selector (nodup_members qt repos selector self eligibleNow)
      (List.mergeSort_perm _ _) _ _
  · rw [byRank_later repos selector horder]
    exact ((byRank_weakOrder repos selector orderNow).stableSort_inOrder _).sublist
      (List.take_sublist _ _)

/-- **The plan of an auto selector.**  Members are judged in the first group that lists them. -/
theorem PlanAutoSelector_ranked (self : ℤ) (selector : AutoSelector) (eligibleNow orderNow : ℤ) :
    let normalized := selector.Normalize
    let plan := (PlanAutoSelector qt repos (some ⟨self, some selector⟩) eligibleNow orderNow).1
    plan.pool.Nodup ∧
    (∀ id ∈ plan.pool, eligible qt repos normalized self eligibleNow id = true) ∧
    (∃ newcomers,
      StablyOrdered (byRank repos normalized orderNow)
        ((membersListed repos normalized self).filter fun id =>
          eligible qt repos normalized self eligibleNow id && id ∉ selector.pool) newcomers ∧
      plan.pool = ((selector.pool.filter
        (eligible qt repos normalized self eligibleNow)).eraseDups ++ newcomers).take
          normalized.poolCap.toNat) ∧
    plan.build = plan.pool.take normalized.buildLimit.toNat ∧
    plan.eligible = ((membersListed repos normalized self).filter
      (eligible qt repos normalized self eligibleNow)).length ∧
    plan.membersInGroups = plan.eligible + plan.skippedCount ∧
    (plan.pool = [] → ∀ id, passesUntested qt repos normalized self eligibleNow id = false) ∧
    (normalized = selector → ∀ firstNow secondNow rankedNow,
      SameFreshness repos selector firstNow secondNow →
      SameFreshness repos selector firstNow eligibleNow →
      let (stored, saved) := RerankAutoSelectorPool qt repos (some ⟨self, some selector⟩) []
        firstNow secondNow rankedNow
      (PlanAutoSelector qt repos saved eligibleNow orderNow).1.pool = stored ∧
        InOrder (byRank repos selector firstNow) stored) := by
  obtain ⟨hbound, hlimit⟩ := bounds_Normalize selector
  have hplanned := planned qt repos selector.Normalize self eligibleNow orderNow
    (by omega) (by omega)
  have hmem : ∀ id, id ∈ members qt repos selector.Normalize self eligibleNow ↔
      eligible qt repos selector.Normalize self eligibleNow id = true :=
    fun id => mem_members qt repos selector.Normalize
  have hnodup := nodup_members qt repos selector.Normalize self eligibleNow
  refine ⟨?_, ?_, ?_, hplanned.build, hplanned.eligible, hplanned.counts, ?_, ?_⟩
  · exact hplanned.pool ▸ (nodup_orderMembers repos _ hnodup _ _).sublist (List.take_sublist _ _)
  · intro id hid
    have hpool : id ∈ (orderMembers repos selector.Normalize
        (members qt repos selector.Normalize self eligibleNow) selector.pool orderNow).take
          selector.Normalize.poolCap.toNat := hplanned.pool ▸ hid
    exact (hmem id).mp ((mem_orderMembers repos _).mp (List.mem_of_mem_take hpool))
  · refine ⟨_, (byRank_weakOrder repos selector.Normalize orderNow).stablyOrdered_stableSort _, ?_⟩
    have hpool := hplanned.pool
    rw [orderMembers_eq] at hpool
    refine hpool.trans (congrArg (List.take _) ?_)
    refine congr_arg₂ _ (congrArg List.eraseDups (List.filter_congr fun id _ => ?_)) ?_
    · rw [Bool.eq_iff_iff, decide_eq_true_iff, hmem]
    · unfold members
      rw [List.filter_filter]
      refine congrArg _ (List.filter_congr fun id _ => ?_)
      rw [Bool.and_comm]
      rfl
  · intro hempty id
    apply members_eq_nil
    have hpool := hplanned.pool
    rw [show (planNormalized qt repos self selector.Normalize eligibleNow orderNow).pool = []
      from hempty] at hpool
    rcases List.take_eq_nil_iff.mp hpool.symm with hzero | hnil
    · omega
    · refine List.eq_nil_iff_forall_not_mem.mpr fun j hj => ?_
      have hin := (@mem_orderMembers repos selector.Normalize _ selector.Normalize.pool
        orderNow j).mpr hj
      rw [hnil] at hin
      exact List.not_mem_nil hin
  · intro hnormal firstNow secondNow rankedNow horder hplan
    exact planned_after_rerank qt repos self hnormal horder hplan

end Guarantees

/-! ## A member of two groups -/

/-- Every custom config is an object, and there are no patterns. -/
def plainTexts : QtTexts where
  regularExpression := fun _ => none
  QString2QJsonObject := fun _ => [("outbounds", .arr [])]
  toUpper := fun text => text

/-- An Xray full config is listed by a group with a front proxy and by one without proxies. -/
def sharedMember : Repositories where
  GetProfile := fun id =>
    if id = 5 then some ⟨"custom", some ⟨.custom "xrayfullconfig" [], ['a'], []⟩, 0, 0, []⟩
    else if id = 9 then some ⟨"vless", some ⟨.other, ['b'], []⟩, 0, 0, []⟩
    else none
  GetGroup := fun gid =>
    if gid = 1 then some { front_proxy_id := 9, profiles := [5] }
    else if gid = 2 then some { profiles := [5] }
    else none

def unclamped : AutoSelector := { gids := [2], poolCap := 0 }

/-- A plan may be empty though a member fits the second of its groups, and a selector that was
never normalized may store another pool than its plan takes. -/
theorem sharedMember_and_unclamped :
    ((PlanAutoSelector plainTexts sharedMember (some ⟨7, some { gids := [1, 2] }⟩) 0 0).1.pool = [] ∧
      ∃ group ∈ trackedGroups sharedMember { gids := [1, 2] }, 5 ∈ group.profiles ∧
        verdict plainTexts sharedMember { gids := [1, 2] }
          (buildFilters plainTexts { gids := [1, 2] }) 0 group 5 = .None) ∧
    let (stored, saved) := RerankAutoSelectorPool plainTexts sharedMember
      (some ⟨7, some unclamped⟩) [] 0 0 0
    (PlanAutoSelector plainTexts sharedMember saved 0 0).1.pool ≠ stored := by
  have hempty : (PlanAutoSelector plainTexts sharedMember (some ⟨7, some { gids := [1, 2] }⟩)
      0 0).1.pool = [] := by decide +kernel
  refine ⟨⟨hempty, { profiles := [5] }, ?_, ?_, ?_⟩, ?_⟩
  · decide +kernel
  · decide +kernel
  · decide +kernel
  rw [RerankAutoSelectorPool_eq plainTexts sharedMember _ _ _ _ _ (by decide)]
  dsimp only
  rw [show unclamped.poolCap.toNat = 0 from rfl, List.take_zero]
  intro hnil
  have hplanned := planned plainTexts sharedMember
    unclamped.Normalize 7 0 0 (by decide) (by decide)
  have hmember : (5 : ℤ) ∈ orderMembers sharedMember
      unclamped.Normalize
      (members plainTexts sharedMember unclamped.Normalize 7 0) unclamped.Normalize.pool 0 := by
    rw [mem_orderMembers, mem_members]
    decide +kernel
  rcases List.take_eq_nil_iff.mp (hplanned.pool.symm.trans hnil) with hzero | hempty
  · exact absurd hzero (by decide)
  · rw [hempty] at hmember
    exact List.not_mem_nil hmember

end Throned.Configs
