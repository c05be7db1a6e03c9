import Throned.Library.FirstOfEach
import Throned.Model.AutoSelectorPlan
import Mathlib.Algebra.BigOperators.Group.List.Basic

/-!
# The members of an auto selector

Each member is judged once, in the first group that lists it.  The scan of the groups sorts the
judged members by their verdict, so every one is eligible or counted under one reason.
-/

set_option autoImplicit false

namespace Throned.Configs

open Throned.Library

/-! ## Normalization -/

namespace AutoSelector

/-- Nothing that a plan reads but the bounds, the groups and the validity is clamped. -/
theorem Normalize_pool (s : AutoSelector) (pool : List ℤ) (at_ : ℤ) :
    { s with pool := pool, poolRankedAt := at_ }.Normalize =
      { s.Normalize with pool := pool, poolRankedAt := at_ } := rfl

end AutoSelector

theorem tracked_eq (gids : List ℤ) : tracked gids = (gids.filter fun gid => gid ≥ 0).eraseDups := by
  have h := foldl_append_new_nil (fun gid : ℤ => decide (gid ≥ 0)) gids
  simp only [decide_eq_true_eq] at h
  exact h

/-- The form in which a loaded selector is. -/
structure Normalized (s : AutoSelector) : Prop where
  gids : s.gids.Nodup ∧ ∀ gid ∈ s.gids, gid ≥ 0
  poolCap : 1 ≤ s.poolCap ∧ s.poolCap ≤ kMaxPoolCap
  buildLimit : 1 ≤ s.buildLimit ∧ s.buildLimit ≤ kMaxBuildLimit ∧ s.buildLimit ≤ s.poolCap
  resultValidityMins : 0 ≤ s.resultValidityMins
  intervals : 10 ≤ s.intervalSec ∧ s.intervalSec ≤ s.benchIntervalSec
  watchIntervalSec : 5 ≤ s.watchIntervalSec ∧ s.watchIntervalSec ≤ s.intervalSec
  ready : 1 ≤ s.expected ∧ s.expected ≤ s.activeSize ∧ s.activeSize ≤ s.buildLimit
  sampling : 2 ≤ s.sampling ∧ s.sampling ≤ 60
  tolerance : 0 ≤ s.toleranceMs ∧ 0 ≤ s.maxRTTms
  dialRetries : 0 ≤ s.dialRetries ∧ s.dialRetries ≤ 5
  balance : 5 ≤ s.balanceIntervalSec ∧ (s.balanceMode = "connection" ∨ s.balanceMode = "rotate")

theorem normalized_Normalize (s : AutoSelector) : Normalized s.Normalize where
  gids := by
    change (tracked s.gids).Nodup ∧ ∀ gid ∈ tracked s.gids, gid ≥ 0
    rw [tracked_eq]
    refine ⟨nodup_eraseDups _, fun gid hgid => ?_⟩
    exact of_decide_eq_true (List.mem_filter.mp (List.mem_eraseDups.mp hgid)).2
  poolCap := by
    unfold AutoSelector.Normalize kMaxPoolCap
    dsimp only
    omega
  buildLimit := by
    unfold AutoSelector.Normalize kMaxBuildLimit kMaxPoolCap
    dsimp only
    omega
  resultValidityMins := le_max_right _ _
  intervals := ⟨le_max_right _ _, le_max_right _ _⟩
  watchIntervalSec := by
    unfold AutoSelector.Normalize
    dsimp only
    omega
  ready := by
    have hlimit : 1 ≤ s.Normalize.buildLimit := by
      unfold AutoSelector.Normalize kMaxBuildLimit kMaxPoolCap
      dsimp only
      omega
    change 1 ≤ min (max s.expected 1) s.Normalize.buildLimit ∧
      min (max s.expected 1) s.Normalize.buildLimit ≤
        min (max (max s.activeSize 1) (max s.expected 1)) s.Normalize.buildLimit ∧
      min (max (max s.activeSize 1) (max s.expected 1)) s.Normalize.buildLimit ≤
        s.Normalize.buildLimit
    omega
  sampling := by
    unfold AutoSelector.Normalize
    dsimp only
    omega
  tolerance := ⟨le_max_right _ _, le_max_right _ _⟩
  dialRetries := by
    unfold AutoSelector.Normalize
    dsimp only
    omega
  balance := by
    refine ⟨le_max_right _ _, ?_⟩
    unfold AutoSelector.Normalize
    dsimp only
    split
    · exact .inr rfl
    · rename_i hmode
      exact .inl (not_not.mp hmode)

/-- A selector in this form is left as it is. -/
theorem Normalized.Normalize_eq {s : AutoSelector} (h : Normalized s) : s.Normalize = s := by
  have hgids : tracked s.gids = s.gids := by
    rw [tracked_eq, List.filter_eq_self.mpr, eraseDups_of_nodup h.gids.1]
    exact fun gid hgid => decide_eq_true (h.gids.2 gid hgid)
  have hmode : (if s.balanceMode ≠ "connection" then "rotate" else s.balanceMode) =
      s.balanceMode := by
    rcases h.balance.2 with hmode | hmode
    · rw [if_neg (not_not.mpr hmode)]
    · rw [hmode]
      rfl
  obtain ⟨⟨hcap, hcapMax⟩, hlimit, hlimitMax, hlimitCap⟩ := And.intro h.poolCap h.buildLimit
  obtain ⟨hexpected, hactive, hactiveLimit⟩ := h.ready
  unfold AutoSelector.Normalize
  dsimp only
  rw [hgids, hmode, max_eq_left hcap, min_eq_left hcapMax, max_eq_left hlimit,
    min_eq_left hlimitMax, min_eq_left hlimitCap, max_eq_left h.resultValidityMins,
    max_eq_left h.intervals.1, max_eq_left h.intervals.2, max_eq_left h.watchIntervalSec.1,
    min_eq_left h.watchIntervalSec.2, max_eq_left hexpected, max_eq_left (hexpected.trans hactive),
    max_eq_left hactive, min_eq_left hactiveLimit, min_eq_left (hactive.trans hactiveLimit),
    max_eq_left h.sampling.1, min_eq_left h.sampling.2, max_eq_left h.tolerance.1,
    max_eq_left h.tolerance.2, max_eq_left h.dialRetries.1, min_eq_left h.dialRetries.2,
    max_eq_left h.balance.1]

/-- **Normalizing again** changes nothing. -/
theorem Normalize_Normalize (s : AutoSelector) : s.Normalize.Normalize = s.Normalize :=
  (normalized_Normalize s).Normalize_eq

theorem placedMembers_eq (members persistedPool : List ℤ) :
    placedMembers members persistedPool =
      (persistedPool.filter fun id => id ∈ members).eraseDups := by
  have h := foldl_append_new_nil (fun id => decide (id ∈ members)) persistedPool
  simp only [decide_eq_true_eq] at h
  rw [← h]
  refine congrArg (fun f => persistedPool.foldl f []) ?_
  funext ordered id
  by_cases hid : id ∈ members
  · by_cases hordered : id ∈ ordered
    · rw [if_pos (.inr hordered), if_neg (by simp [hordered])]
    · rw [if_neg (by simp [hid, hordered]), if_pos ⟨hid, hordered⟩]
  · rw [if_pos (.inl hid), if_neg (by simp [hid])]

/-! ## Verdicts -/

section Verdicts

variable (qt : QtTexts) (repos : Repositories) (selector : AutoSelector)

/-- The verdict on a member of a group. -/
def verdict (filters : MemberFilters) (now : ℤ) (group : Group) (id : ℤ) : AutoSelectorSkip :=
  let skip := eligibilityOf qt (repos.GetProfile id) selector filters now
  let chained := chainSkip (groupProxy repos group.landing_proxy_id)
    (groupProxy repos group.front_proxy_id) (repos.GetProfile id)
  if skip ≠ .None ∧ skip ≠ .Unavailable then skip
  else if chained ≠ .None then chained
  else skip

/-- The tracked groups that exist. -/
def trackedGroups : List Group := selector.gids.filterMap repos.GetGroup

/-- What the groups list, in order, each profile with its group. -/
def listed : List (Group × ℤ) :=
  (trackedGroups repos selector).flatMap fun group => group.profiles.map fun id => (group, id)

/-- A selector is no member of itself. -/
def memberKey (self : ℤ) (entry : Group × ℤ) : Option ℤ :=
  if entry.2 = self then none else some entry.2

/-- The members, each with the group it is judged in. -/
def judged (self : ℤ) : List (ℤ × Group × ℤ) :=
  firsts (memberKey self) [] (listed repos selector)

/-- The members in the order of the groups. -/
def membersListed (self : ℤ) : List ℤ :=
  (((trackedGroups repos selector).flatMap Group.profiles).filter fun id => id ≠ self).eraseDups

/-- The verdict on a profile, in the first of the groups that lists it. -/
def verdictOn (self now id : ℤ) : Option AutoSelectorSkip :=
  if id = self then none
  else
    ((trackedGroups repos selector).find? fun group => id ∈ group.profiles).map fun group =>
      verdict qt repos selector (buildFilters qt selector) now group id

/-- A member that passes all filters. -/
def passes (self now id : ℤ) : Bool := verdictOn qt repos selector self now id = some .None

/-- A member that passes all filters when failures of its last test are ignored. -/
def passesUntested (self now id : ℤ) : Bool :=
  passes qt repos { selector with excludeUnavailable := false } self now id

/-- Members whose last test failed are eligible when there are no others. -/
def eligible (self now id : ℤ) : Bool :=
  if (membersListed repos selector self).any (passes qt repos selector self now) then
    passes qt repos selector self now id
  else passesUntested qt repos selector self now id

end Verdicts

/-! ## Members judged once -/

section Judged

variable (repos : Repositories) (selector : AutoSelector)

theorem filterMap_memberKey (self : ℤ) (entries : List (Group × ℤ)) :
    entries.filterMap (memberKey self) = (entries.map Prod.snd).filter fun id => id ≠ self := by
  induction entries with
  | nil => rfl
  | cons entry entries ih =>
    by_cases h : entry.2 = self
    · have hkey : memberKey self entry = none := if_pos h
      rw [List.filterMap_cons_none hkey, List.map_cons, List.filter_cons_of_neg (by simp [h]), ih]
    · have hkey : memberKey self entry = some entry.2 := if_neg h
      rw [List.filterMap_cons_some hkey, List.map_cons, List.filter_cons_of_pos (by simp [h]), ih]

theorem map_snd_listed :
    (listed repos selector).map Prod.snd =
      (trackedGroups repos selector).flatMap Group.profiles := by
  unfold listed
  rw [List.map_flatMap]
  refine congrArg (fun f => List.flatMap f _) (funext fun group => ?_)
  rw [List.map_map]
  exact List.map_id _

theorem map_fst_judged (self : ℤ) :
    (judged repos selector self).map Prod.fst = membersListed repos selector self := by
  rw [judged, map_fst_firsts, filterMap_memberKey, map_snd_listed, membersListed,
    List.filter_eq_self.mpr]
  simp

theorem nodup_membersListed (self : ℤ) : (membersListed repos selector self).Nodup :=
  nodup_eraseDups _

/-- A member is judged in the first group that lists it. -/
theorem find?_listed {self id : ℤ} (hid : id ≠ self) :
    ((listed repos selector).find? fun entry => memberKey self entry = some id) =
      ((trackedGroups repos selector).find? fun group => id ∈ group.profiles).map fun group =>
        (group, id) := by
  unfold listed
  induction trackedGroups repos selector with
  | nil => rfl
  | cons group groups ih =>
    have hkey : ∀ j, decide (memberKey self (group, j) = some id) = decide (j = id) := by
      intro j
      rw [decide_eq_decide, memberKey]
      by_cases hj : j = self
      · rw [if_pos hj]
        exact ⟨fun h => absurd h (by simp), fun h => absurd (h.symm.trans hj) hid⟩
      · rw [if_neg hj, Option.some_inj]
    have hhere : ((group.profiles.map fun j => (group, j)).find? fun entry =>
        memberKey self entry = some id) = if id ∈ group.profiles then some (group, id) else none := by
      induction group.profiles with
      | nil => rfl
      | cons j ids ihids =>
        rw [List.map_cons, List.find?_cons, hkey]
        by_cases hj : j = id
        · rw [decide_eq_true hj, if_pos (by simp [hj]), hj]
        · rw [decide_eq_false hj]
          dsimp only
          rw [ihids]
          simp only [List.mem_cons, Ne.symm hj, false_or]
    rw [List.flatMap_cons, List.find?_append, hhere, List.find?_cons]
    by_cases hmem : id ∈ group.profiles
    · rw [if_pos hmem, decide_eq_true hmem]
      rfl
    · rw [if_neg hmem, decide_eq_false hmem, Option.none_or]
      exact ih

theorem mem_judged {self : ℤ} {e : ℤ × Group × ℤ} (h : e ∈ judged repos selector self) :
    e.1 ≠ self ∧ e.2.2 = e.1 ∧
      ((trackedGroups repos selector).find? fun group => e.1 ∈ group.profiles) = some e.2.1 := by
  obtain ⟨-, hfind⟩ := mem_firsts_iff.mp h
  obtain ⟨hkey, -, -⟩ := mem_firsts h
  have hself : e.1 ≠ self := by
    rintro heq
    rw [memberKey] at hkey
    split at hkey
    · cases hkey
    · rename_i hne
      exact hne (heq ▸ Option.some_inj.mp hkey)
  rw [find?_listed repos selector hself, Option.map_eq_some_iff] at hfind
  obtain ⟨group, hgroup, heq⟩ := hfind
  rw [← heq]
  exact ⟨hself, rfl, hgroup⟩

end Judged

/-! ## The scan -/

section Scan

variable (qt : QtTexts) (repos : Repositories) (selector : AutoSelector) (filters : MemberFilters)

/-- The verdict on a judged member. -/
def verdictAt (now : ℤ) (e : ℤ × Group × ℤ) : AutoSelectorSkip :=
  verdict qt repos selector filters now e.2.1 e.2.2

/-- A reason that is counted when it is met. -/
def Counted (skip : AutoSelectorSkip) : Prop := skip ≠ .None ∧ skip ≠ .Unavailable

instance (skip : AutoSelectorSkip) : Decidable (Counted skip) :=
  inferInstanceAs (Decidable (_ ∧ _))

theorem chainSkip_cases (landing front member : Option Profile) :
    chainSkip landing front member = .None ∨ Counted (chainSkip landing front member) := by
  unfold chainSkip
  split
  · split
    · exact .inr (by decide)
    · exact .inl rfl
  · split
    · exact .inr (by decide)
    · exact .inl rfl

/-- One step of the scan, by the verdict. -/
theorem scanMember_eq (self now : ℤ) (group : Group) (scan : MemberScan) {id : ℤ}
    (hself : id ≠ self) (hseen : id ∉ scan.seen) :
    scanMember qt repos selector self filters now (groupProxy repos group.landing_proxy_id)
        (groupProxy repos group.front_proxy_id) scan id =
      let skip := verdict qt repos selector filters now group id
      { scan with
        seen := id :: scan.seen
        membersInGroups := scan.membersInGroups + 1
        skips := if Counted skip then Function.update scan.skips skip (scan.skips skip + 1)
          else scan.skips
        unavailable := if skip = .Unavailable then scan.unavailable ++ [id] else scan.unavailable
        members := if skip = .None then scan.members ++ [id] else scan.members
        rankedByTest :=
          if skip = .None ∧ effectiveLatency (repos.GetProfile id) selector now > 0 then
            scan.rankedByTest + 1
          else scan.rankedByTest } := by
  rw [scanMember, if_neg (by simp [hself, hseen]), verdict]
  dsimp only
  by_cases hskip : Counted (eligibilityOf qt (repos.GetProfile id) selector filters now)
  · have hneither := hskip
    unfold Counted at hskip
    rw [if_pos hskip, if_pos hskip, if_pos hneither, if_neg hskip.2, if_neg hskip.1,
      if_neg (fun h => hskip.1 h.1)]
  · have hneither := hskip
    unfold Counted at hskip
    rw [if_neg hskip, if_neg hskip]
    rcases chainSkip_cases (groupProxy repos group.landing_proxy_id)
        (groupProxy repos group.front_proxy_id) (repos.GetProfile id) with hchain | hchain
    · rw [hchain, if_neg (not_not.mpr rfl), if_neg (not_not.mpr rfl), if_neg hneither]
      by_cases hunavailable :
          eligibilityOf qt (repos.GetProfile id) selector filters now = .Unavailable
      · rw [hunavailable]
        simp
      · have hnone : eligibilityOf qt (repos.GetProfile id) selector filters now = .None := by
          by_contra hne
          exact hskip ⟨hne, hunavailable⟩
        rw [hnone]
        simp
    · rw [if_pos hchain.1, if_pos hchain.1, if_pos hchain, if_neg hchain.2, if_neg hchain.1,
        if_neg (fun h => hchain.1 h.1)]

/-- One entry of what the groups list. -/
def scanEntry (self now : ℤ) (scan : MemberScan) (entry : Group × ℤ) : MemberScan :=
  scanMember qt repos selector self filters now (groupProxy repos entry.1.landing_proxy_id)
    (groupProxy repos entry.1.front_proxy_id) scan entry.2

theorem foldl_scanGroup (self now : ℤ) (groups : List Group) (scan : MemberScan) :
    groups.foldl (scanGroup qt repos selector self filters now) scan =
      (groups.flatMap fun group => group.profiles.map fun id => (group, id)).foldl
        (scanEntry qt repos selector filters self now) scan := by
  rw [List.foldl_flatMap]
  refine congrArg (fun f => groups.foldl f scan) ?_
  funext scan group
  rw [List.foldl_map]
  rfl

/-- What a scan has found of the members it judged. -/
structure Scanned (now : ℤ) (before after : MemberScan) (es : List (ℤ × Group × ℤ)) : Prop where
  members : after.members = before.members ++
    (es.filter fun e => verdictAt qt repos selector filters now e = .None).map Prod.fst
  unavailable : after.unavailable = before.unavailable ++
    (es.filter fun e => verdictAt qt repos selector filters now e = .Unavailable).map Prod.fst
  skips : ∀ skip, after.skips skip = before.skips skip +
    if Counted skip then es.countP fun e => verdictAt qt repos selector filters now e = skip else 0
  membersInGroups : after.membersInGroups = before.membersInGroups + es.length

/-- **The scan** judges each member once. -/
theorem scanned (self now : ℤ) (entries : List (Group × ℤ)) (scan : MemberScan) :
    Scanned qt repos selector filters now scan
      (entries.foldl (scanEntry qt repos selector filters self now) scan)
      (firsts (memberKey self) scan.seen entries) := by
  induction entries generalizing scan with
  | nil => exact ⟨by simp [firsts], by simp [firsts], by simp [firsts], by simp [firsts]⟩
  | cons entry entries ih =>
    obtain ⟨group, id⟩ := entry
    rw [List.foldl_cons, firsts]
    by_cases hself : id = self
    · have hstep : scanEntry qt repos selector filters self now scan (group, id) = scan :=
        if_pos (.inl hself)
      rw [hstep, memberKey, if_pos hself]
      exact ih scan
    rw [memberKey, if_neg hself]
    dsimp only
    by_cases hseen : id ∈ scan.seen
    · have hstep : scanEntry qt repos selector filters self now scan (group, id) = scan :=
        if_pos (.inr hseen)
      rw [hstep, if_pos hseen]
      exact ih scan
    · rw [if_neg hseen]
      have hstep := scanMember_eq qt repos selector filters self now group scan hself hseen
      have hafter := ih (scanEntry qt repos selector filters self now scan (group, id))
      have hseen' : (scanEntry qt repos selector filters self now scan (group, id)).seen =
          id :: scan.seen := congrArg MemberScan.seen hstep
      rw [hseen'] at hafter
      have hat : verdictAt qt repos selector filters now (id, group, id) =
          verdict qt repos selector filters now group id := rfl
      constructor
      · rw [hafter.members, scanEntry, hstep, List.filter_cons, hat]
        by_cases hnone : verdict qt repos selector filters now group id = .None
        · simp [hnone]
        · simp [hnone]
      · rw [hafter.unavailable, scanEntry, hstep, List.filter_cons, hat]
        by_cases hun : verdict qt repos selector filters now group id = .Unavailable
        · simp [hun]
        · simp [hun]
      · intro skip
        rw [hafter.skips, scanEntry, hstep, List.countP_cons, hat]
        dsimp only
        by_cases heq : verdict qt repos selector filters now group id = skip
        · rw [heq]
          by_cases hcounted : Counted skip
          · rw [if_pos hcounted, if_pos hcounted, if_pos hcounted, Function.update_self,
              if_pos (decide_eq_true rfl)]
            omega
          · rw [if_neg hcounted, if_neg hcounted, if_neg hcounted]
        · have hother : decide (verdict qt repos selector filters now group id = skip) = false :=
            decide_eq_false heq
          simp only [hother, Bool.false_eq_true, if_false, Nat.add_zero]
          by_cases hcounted : Counted (verdict qt repos selector filters now group id)
          · rw [if_pos hcounted, Function.update_of_ne (Ne.symm heq)]
          · rw [if_neg hcounted]
      · rw [hafter.membersInGroups, scanEntry, hstep, List.length_cons]
        dsimp only
        omega

end Scan

/-! ## Failures of the last test -/

section Failures

variable (qt : QtTexts) (repos : Repositories) (selector : AutoSelector)

theorem customSkip_ne_Unavailable (kind : OutboundClass) : customSkip qt kind ≠ .Unavailable := by
  unfold customSkip
  split
  · split
    · decide
    · split
      · decide
      · decide
  · decide

/-- A failed last test does not count. -/
def ignoringFailure (skip : AutoSelectorSkip) : AutoSelectorSkip :=
  if skip = .Unavailable then .None else skip

theorem ignoringFailure_of_ne {skip : AutoSelectorSkip} (h : skip ≠ .Unavailable) :
    ignoringFailure skip = skip := if_neg h

/-- A check before that of the last test. -/
theorem check_ignoring {c : Prop} [Decidable c] {reason skip skip' : AutoSelectorSkip}
    (hreason : reason ≠ .Unavailable) (h : skip' = ignoringFailure skip) :
    (if c then reason else skip') = ignoringFailure (if c then reason else skip) := by
  by_cases hc : c
  · rw [if_pos hc, if_pos hc, ignoringFailure_of_ne hreason]
  · rw [if_neg hc, if_neg hc, h]

/-- A selector that ignores failures lets the members through that failed. -/
theorem eligibilityOf_ignoring (member : Option Profile) (filters : MemberFilters) (now : ℤ) :
    eligibilityOf qt member { selector with excludeUnavailable := false } filters now =
      ignoringFailure (eligibilityOf qt member selector filters now) := by
  unfold eligibilityOf
  cases member with
  | none => rfl
  | some profile =>
    obtain ⟨type, outbound, latency, latency_at, test_country⟩ := profile
    cases outbound with
    | none => rfl
    | some outbound =>
      dsimp only
      refine check_ignoring (by decide) (check_ignoring (by decide) (check_ignoring (by decide)
        (check_ignoring (by decide) (check_ignoring (customSkip_ne_Unavailable qt _)
          (check_ignoring (by decide) (check_ignoring (by decide) ?_))))))
      rw [if_neg (fun h => Bool.false_ne_true h.1)]
      split
      · rfl
      · rfl

theorem verdict_ignoring (filters : MemberFilters) (now : ℤ) (group : Group) (id : ℤ) :
    verdict qt repos { selector with excludeUnavailable := false } filters now group id =
      ignoringFailure (verdict qt repos selector filters now group id) := by
  unfold verdict
  rw [eligibilityOf_ignoring]
  dsimp only
  unfold ignoringFailure
  rcases chainSkip_cases (groupProxy repos group.landing_proxy_id)
      (groupProxy repos group.front_proxy_id) (repos.GetProfile id) with hchain | hchain
  · rw [hchain]
    by_cases hfailed : eligibilityOf qt (repos.GetProfile id) selector filters now = .Unavailable
    · simp [hfailed]
    · simp [hfailed]
  · unfold Counted at hchain
    by_cases hfailed : eligibilityOf qt (repos.GetProfile id) selector filters now = .Unavailable
    · simp [hfailed, hchain.1, hchain.2]
    · by_cases hnone : eligibilityOf qt (repos.GetProfile id) selector filters now = .None
      · simp [hnone, hchain.1, hchain.2]
      · simp [hfailed, hnone]

theorem passesUntested_iff {self now id : ℤ} :
    passesUntested qt repos selector self now id = true ↔
      verdictOn qt repos selector self now id = some .None ∨
        verdictOn qt repos selector self now id = some .Unavailable := by
  unfold passesUntested passes verdictOn
  rw [decide_eq_true_iff]
  change (if id = self then none
    else ((trackedGroups repos selector).find? fun group => decide (id ∈ group.profiles)).map
      fun group => verdict qt repos { selector with excludeUnavailable := false }
        (buildFilters qt selector) now group id) = some .None ↔ _
  simp only [verdict_ignoring]
  split
  · simp
  · cases (trackedGroups repos selector).find? fun group => decide (id ∈ group.profiles) with
    | none => simp
    | some group =>
      simp only [Option.map_some, Option.some_inj, ignoringFailure]
      by_cases hfailed : verdict qt repos selector (buildFilters qt selector) now group id =
          .Unavailable
      · simp [hfailed]
      · simp [hfailed]

/-- A member that passes, passes without regard to its last test. -/
theorem passesUntested_of_passes {self now id : ℤ}
    (h : passes qt repos selector self now id = true) :
    passesUntested qt repos selector self now id = true :=
  (passesUntested_iff qt repos selector).mpr (.inl (of_decide_eq_true h))

theorem mem_membersListed_of_verdict {self now id : ℤ} {skip : AutoSelectorSkip}
    (h : verdictOn qt repos selector self now id = some skip) :
    id ∈ membersListed repos selector self := by
  unfold verdictOn at h
  split at h
  · cases h
  · rename_i hself
    obtain ⟨group, hgroup, -⟩ := Option.map_eq_some_iff.mp h
    refine List.mem_eraseDups.mpr (List.mem_filter.mpr ⟨List.mem_flatMap.mpr ⟨group, ?_, ?_⟩, ?_⟩)
    · exact List.mem_of_find?_eq_some hgroup
    · simpa using List.find?_some hgroup
    · simpa using hself

theorem mem_membersListed_of_passesUntested {self now id : ℤ}
    (h : passesUntested qt repos selector self now id = true) :
    id ∈ membersListed repos selector self := by
  rcases (passesUntested_iff qt repos selector).mp h with hverdict | hverdict
  · exact mem_membersListed_of_verdict qt repos selector hverdict
  · exact mem_membersListed_of_verdict qt repos selector hverdict

/-- Some member is eligible as soon as one passes without regard to its last test. -/
theorem exists_eligible {self now id : ℤ}
    (h : passesUntested qt repos selector self now id = true) :
    ∃ id ∈ membersListed repos selector self, eligible qt repos selector self now id = true := by
  unfold eligible
  by_cases hany : ((membersListed repos selector self).any
      (passes qt repos selector self now)) = true
  · obtain ⟨j, hj, hpasses⟩ := List.any_eq_true.mp hany
    exact ⟨j, hj, by rwa [if_pos hany]⟩
  · exact ⟨id, mem_membersListed_of_passesUntested qt repos selector h, by rwa [if_neg hany]⟩

end Failures

/-! ## What the scan leaves -/

section Members

variable (qt : QtTexts) (repos : Repositories) (selector : AutoSelector)

theorem verdictOn_of_mem_judged {self : ℤ} (now : ℤ) {e : ℤ × Group × ℤ}
    (h : e ∈ judged repos selector self) :
    verdictOn qt repos selector self now e.1 =
      some (verdictAt qt repos selector (buildFilters qt selector) now e) := by
  obtain ⟨hself, hid, hgroup⟩ := mem_judged repos selector h
  rw [verdictOn, if_neg hself, hgroup, verdictAt, hid]
  rfl

/-- The judged members with a verdict, in the order of the groups. -/
theorem map_fst_filter_judged (self now : ℤ) (skip : AutoSelectorSkip) :
    ((judged repos selector self).filter fun e =>
        verdictAt qt repos selector (buildFilters qt selector) now e = skip).map Prod.fst =
      (membersListed repos selector self).filter fun id =>
        verdictOn qt repos selector self now id = some skip := by
  rw [← map_fst_judged, List.filter_map]
  refine congrArg _ (List.filter_congr fun e he => ?_)
  rw [Function.comp_apply, verdictOn_of_mem_judged qt repos selector now he, decide_eq_decide,
    Option.some_inj]

/-- The scan of all tracked groups. -/
def scanAll (self now : ℤ) : MemberScan :=
  (trackedGroups repos selector).foldl
    (scanGroup qt repos selector self (buildFilters qt selector) now) {}

theorem scanned_all (self now : ℤ) :
    Scanned qt repos selector (buildFilters qt selector) now {}
      (scanAll qt repos selector self now) (judged repos selector self) := by
  unfold scanAll
  rw [foldl_scanGroup]
  exact scanned qt repos selector _ self now _ {}

theorem scanAll_members (self now : ℤ) :
    (scanAll qt repos selector self now).members =
      (membersListed repos selector self).filter (passes qt repos selector self now) := by
  rw [(scanned_all qt repos selector self now).members, map_fst_filter_judged, List.nil_append]
  rfl

theorem scanAll_unavailable (self now : ℤ) :
    (scanAll qt repos selector self now).unavailable =
      (membersListed repos selector self).filter fun id =>
        verdictOn qt repos selector self now id = some .Unavailable := by
  rw [(scanned_all qt repos selector self now).unavailable, map_fst_filter_judged, List.nil_append]

/-- The members that are left when the failed ones are kept. -/
theorem filter_eligible (self now : ℤ) :
    (membersListed repos selector self).filter (eligible qt repos selector self now) =
      if (scanAll qt repos selector self now).members.isEmpty then
        (scanAll qt repos selector self now).unavailable
      else (scanAll qt repos selector self now).members := by
  have hempty : (scanAll qt repos selector self now).members.isEmpty =
      !(membersListed repos selector self).any (passes qt repos selector self now) := by
    rw [scanAll_members, Bool.eq_iff_iff, List.isEmpty_iff, List.filter_eq_nil_iff,
      Bool.not_eq_true', ← Bool.not_eq_true, List.any_eq_true]
    simp
  rw [hempty, scanAll_unavailable, scanAll_members]
  cases hany : (membersListed repos selector self).any (passes qt repos selector self now) with
  | true =>
    rw [Bool.not_true, if_neg Bool.false_ne_true]
    refine List.filter_congr fun id _ => ?_
    rw [eligible, if_pos hany]
  | false =>
    rw [Bool.not_false, if_pos rfl]
    refine List.filter_congr fun id hid => ?_
    rw [eligible, if_neg (by rw [hany]; exact Bool.false_ne_true), Bool.eq_iff_iff,
      passesUntested_iff, decide_eq_true_iff, or_iff_right]
    intro hpasses
    exact List.any_eq_false.mp hany id hid (decide_eq_true hpasses)

theorem membersListed_of_no_group {self : ℤ} (h : trackedGroups repos selector = []) :
    membersListed repos selector self = [] := by
  rw [membersListed, h]
  rfl

/-- **The members of a plan** are the eligible ones, in the order of the groups. -/
theorem eligibleMembers_fst (self now : ℤ) (plan : AutoSelectorPlan) :
    (eligibleMembers qt repos selector self now plan).1 =
      (membersListed repos selector self).filter (eligible qt repos selector self now) := by
  unfold eligibleMembers
  by_cases hgids : selector.gids.isEmpty = true
  · have hnone : trackedGroups repos selector = [] := by
      rw [trackedGroups, List.isEmpty_iff.mp hgids]
      rfl
    rw [if_pos hgids, membersListed_of_no_group repos selector hnone]
    rfl
  · rw [if_neg hgids]
    dsimp only
    by_cases hgroups : (selector.gids.filterMap repos.GetGroup).isEmpty = true
    · rw [if_pos hgroups, membersListed_of_no_group repos selector (List.isEmpty_iff.mp hgroups)]
      rfl
    · rw [if_neg hgroups, filter_eligible]
      change (if (scanAll qt repos selector self now).members.isEmpty &&
          !(scanAll qt repos selector self now).unavailable.isEmpty then
            (scanAll qt repos selector self now).unavailable
          else (scanAll qt repos selector self now).members) = _
      cases hmembers : (scanAll qt repos selector self now).members.isEmpty with
      | false => rfl
      | true =>
        rw [if_pos rfl, Bool.true_and]
        cases hfailed : (scanAll qt repos selector self now).unavailable.isEmpty with
        | false => rfl
        | true =>
          rw [Bool.not_true, if_neg Bool.false_ne_true, List.isEmpty_iff.mp hmembers,
            List.isEmpty_iff.mp hfailed]

end Members

/-! ## The counts -/

section Counts

/-- Each item is counted under one of the reasons. -/
theorem sum_countP_reasons {α : Type*} (f : α → AutoSelectorSkip) (xs : List α) :
    (skipReasons.map fun skip => if Counted skip then xs.countP fun x => f x = skip else 0).sum =
      xs.countP fun x => Counted (f x) := by
  induction xs with
  | nil => simp
  | cons x xs ih =>
    have hone : (skipReasons.map fun skip => if Counted skip then
        (if f x = skip then 1 else 0) else 0).sum = if Counted (f x) then 1 else 0 := by
      cases f x <;> decide
    simp only [List.countP_cons, decide_eq_true_eq]
    rw [← ih, ← hone, ← List.sum_map_add]
    refine congrArg List.sum (List.map_congr_left fun skip _ => ?_)
    split
    · rfl
    · rfl

theorem sum_update_reasons (f : AutoSelectorSkip → ℕ) (n : ℕ) :
    (skipReasons.map (Function.update f .Unavailable (f .Unavailable + n))).sum =
      (skipReasons.map f).sum + n := by
  simp only [skipReasons, List.map_cons, List.map_nil, List.sum_cons, List.sum_nil,
    Function.update_self]
  simp [Function.update_of_ne]
  omega

theorem sum_filter_ne_zero {α : Type*} (f : α → ℕ) (xs : List α) :
    ((xs.filter fun x => f x ≠ 0).map f).sum = (xs.map f).sum := by
  induction xs with
  | nil => rfl
  | cons x xs ih =>
    by_cases hx : f x = 0
    · rw [List.filter_cons_of_neg (by simp [hx]), List.map_cons, List.sum_cons, ih, hx, Nat.zero_add]
    · rw [List.filter_cons_of_pos (by simp [hx]), List.map_cons, List.map_cons, List.sum_cons,
        List.sum_cons, ih]

variable (qt : QtTexts) (repos : Repositories) (selector : AutoSelector)

theorem scanAll_counts (self now : ℤ) :
    (scanAll qt repos selector self now).membersInGroups =
      (scanAll qt repos selector self now).members.length +
        (scanAll qt repos selector self now).unavailable.length +
          (skipReasons.map (scanAll qt repos selector self now).skips).sum := by
  have hscan := scanned_all qt repos selector self now
  have hskips : (scanAll qt repos selector self now).skips = fun skip =>
      if Counted skip then (judged repos selector self).countP fun e =>
        verdictAt qt repos selector (buildFilters qt selector) now e = skip else 0 := by
    funext skip
    rw [hscan.skips, Nat.zero_add]
  rw [hscan.membersInGroups, hscan.members, hscan.unavailable, hskips, sum_countP_reasons]
  simp only [List.nil_append, List.length_map, Nat.zero_add, ← List.countP_eq_length_filter]
  induction judged repos selector self with
  | nil => rfl
  | cons e es ih =>
    simp only [List.countP_cons, List.length_cons, decide_eq_true_eq]
    rw [ih]
    unfold Counted
    cases verdictAt qt repos selector (buildFilters qt selector) now e <;> simp <;> omega

/-- **Every member in the groups is eligible or skipped.** -/
theorem eligibleMembers_counts (self now : ℤ) {plan : AutoSelectorPlan}
    (hmembers : plan.membersInGroups = 0) (hskipped : plan.skipped = []) :
    (eligibleMembers qt repos selector self now plan).2.membersInGroups =
      (eligibleMembers qt repos selector self now plan).1.length +
        (eligibleMembers qt repos selector self now plan).2.skippedCount := by
  unfold eligibleMembers AutoSelectorPlan.skippedCount
  by_cases hgids : selector.gids.isEmpty = true
  · rw [if_pos hgids]
    simp [hmembers, hskipped]
  rw [if_neg hgids]
  dsimp only
  by_cases hgroups : (selector.gids.filterMap repos.GetGroup).isEmpty = true
  · rw [if_pos hgroups]
    simp [hmembers, hskipped]
  rw [if_neg hgroups]
  have hscan : (selector.gids.filterMap repos.GetGroup).foldl
      (scanGroup qt repos selector self (buildFilters qt selector) now) {} =
        scanAll qt repos selector self now := rfl
  have hcounts := scanAll_counts qt repos selector self now
  rw [hscan]
  dsimp only
  rw [hmembers, hskipped, List.nil_append, List.map_map, Nat.zero_add, hcounts]
  have hsum : ∀ skips : AutoSelectorSkip → ℕ,
      ((skipReasons.filter fun skip => skips skip ≠ 0).map
        (Prod.snd ∘ fun skip => (skip, skips skip))).sum = (skipReasons.map skips).sum :=
    fun skips => sum_filter_ne_zero skips skipReasons
  rw [hsum]
  cases hempty : (scanAll qt repos selector self now).members.isEmpty with
  | true =>
    have hnil := List.isEmpty_iff.mp hempty
    cases hfailed : (scanAll qt repos selector self now).unavailable.isEmpty with
    | true => simp [hnil, List.isEmpty_iff.mp hfailed]
    | false => simp [hnil]
  | false =>
    cases hfailed : (scanAll qt repos selector self now).unavailable.isEmpty with
    | true => simp [List.isEmpty_iff.mp hfailed]
    | false =>
      simp only [Bool.false_and, Bool.not_false, Bool.true_and, if_true, Bool.false_eq_true,
        if_false, sum_update_reasons]
      omega

end Counts

end Throned.Configs
