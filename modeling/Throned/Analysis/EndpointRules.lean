import Throned.Analysis.OwnedRules
import Throned.Model.RouteProfile

/-!
# The rules of the endpoints

The pass over the rules keeps the first rule of each target and every rule of another kind; what
it counts as paired are the targets that had a rule.  So after it each target has one rule, and a
second pass finds nothing to do.
-/

set_option autoImplicit false

namespace Throned.Routes

open Throned.Library
open Throned.Configs (actionRoute)

/-- A rule of the endpoint `id`. -/
def isRuleOf (id : ℤ) (rule : RouteRule) : Bool :=
  rule.type = .endpointPreferredBy && rule.outboundID = id

theorem isRuleOf_iff {id : ℤ} {rule : RouteRule} :
    isRuleOf id rule = true ↔ rule.type = .endpointPreferredBy ∧ rule.outboundID = id := by
  simp [isRuleOf]

/-! ## The targets -/

theorem nodup_joinOnce {targets : List ℤ} (h : targets.Nodup) (id : ℤ) :
    (joinOnce targets id).Nodup := by
  unfold joinOnce
  split
  · exact h
  · rename_i hnew
    exact List.nodup_append.mpr ⟨h, List.nodup_singleton id, by
      intro a ha b hb
      rintro rfl
      exact hnew (List.mem_singleton.mp hb ▸ ha)⟩

theorem nodup_foldl {α : Type*} {add : List ℤ → α → List ℤ}
    (hadd : ∀ targets item, targets.Nodup → (add targets item).Nodup) (items : List α)
    {targets : List ℤ} (h : targets.Nodup) : (items.foldl add targets).Nodup := by
  induction items generalizing targets with
  | nil => exact h
  | cons item items ih => exact ih (hadd targets item h)

theorem nodup_addTargets (getProfile : Profiles) (innerHops : List ℤ) (targets : List ℤ) (id : ℤ)
    (h : targets.Nodup) : (addTargets getProfile innerHops targets id).Nodup := by
  unfold addTargets
  split
  · exact h
  · rename_i hnew
    have hjoined : (targets ++ [id]).Nodup := by
      have := nodup_joinOnce h id
      rwa [joinOnce, if_neg hnew] at this
    split
    · exact hjoined
    · exact nodup_foldl (fun targets hop h => nodup_joinOnce h hop) _ hjoined

/-- **No target stands twice.** -/
theorem nodup_endpointRuleTargets (getProfile : Profiles) (profile : RouteProfile) :
    (endpointRuleTargets getProfile profile).Nodup :=
  nodup_foldl (nodup_addTargets getProfile profile.innerHopEndpointIDs) _ List.nodup_nil

/-! ## The pass over the rules -/

section Pass

variable (targets : List ℤ)

theorem keepPaired_sublist (paired : List ℤ) (rules : List RouteRule) :
    (keepPaired targets paired rules).1.Sublist rules := by
  induction rules generalizing paired with
  | nil => exact List.Sublist.refl _
  | cons rule rules ih =>
    rw [keepPaired]
    split
    · split
      · exact (ih paired).cons rule
      · exact (ih _).cons_cons rule
    · exact (ih paired).cons_cons rule

theorem keepPaired_others (paired : List ℤ) (rules : List RouteRule) :
    (keepPaired targets paired rules).1.filter (fun rule => rule.type ≠ .endpointPreferredBy) =
      rules.filter fun rule => rule.type ≠ .endpointPreferredBy := by
  induction rules generalizing paired with
  | nil => rfl
  | cons rule rules ih =>
    rw [keepPaired]
    split
    · rename_i hend
      rw [List.filter_cons_of_neg (by simp [hend])]
      split
      · exact ih paired
      · rw [List.filter_cons_of_neg (by simp [hend])]
        exact ih _
    · rename_i hother
      rw [List.filter_cons_of_pos (by simp [hother]), List.filter_cons_of_pos (by simp [hother])]
      exact congrArg _ (ih paired)

/-- The ids that are paired in the end: the targets that have a rule. -/
theorem mem_keepPaired (paired : List ℤ) (rules : List RouteRule) (id : ℤ) :
    id ∈ (keepPaired targets paired rules).2 ↔
      id ∈ paired ∨ id ∈ targets ∧ ∃ rule ∈ rules, isRuleOf id rule = true := by
  induction rules generalizing paired with
  | nil => simp [keepPaired]
  | cons rule rules ih =>
    rw [keepPaired, List.exists_mem_cons_iff, isRuleOf_iff]
    split
    · rename_i hend
      split
      · rename_i hdrop
        rw [ih]
        constructor
        · rintro (hpaired | ⟨htarget, hrule⟩)
          · exact .inl hpaired
          · exact .inr ⟨htarget, .inr hrule⟩
        · rintro (hpaired | ⟨htarget, ⟨-, rfl⟩ | hrule⟩)
          · exact .inl hpaired
          · exact .inl (hdrop.resolve_left fun hnot => hnot htarget)
          · exact .inr ⟨htarget, hrule⟩
      · rename_i hkeep
        rw [ih, List.mem_cons]
        constructor
        · rintro ((rfl | hpaired) | ⟨htarget, hrule⟩)
          · exact .inr ⟨not_not.mp fun hnot => hkeep (.inl hnot), .inl ⟨hend, rfl⟩⟩
          · exact .inl hpaired
          · exact .inr ⟨htarget, .inr hrule⟩
        · rintro (hpaired | ⟨htarget, ⟨-, rfl⟩ | hrule⟩)
          · exact .inl (.inr hpaired)
          · exact .inl (.inl rfl)
          · exact .inr ⟨htarget, hrule⟩
    · rename_i hother
      rw [ih]
      constructor
      · rintro (hpaired | ⟨htarget, hrule⟩)
        · exact .inl hpaired
        · exact .inr ⟨htarget, .inr hrule⟩
      · rintro (hpaired | ⟨htarget, ⟨hend, -⟩ | hrule⟩)
        · exact .inl hpaired
        · exact absurd hend hother
        · exact .inr ⟨htarget, hrule⟩

/-- Of each id that is paired on the way, one rule is kept. -/
theorem countP_keepPaired (paired : List ℤ) (rules : List RouteRule) (id : ℤ) :
    (keepPaired targets paired rules).1.countP (isRuleOf id) =
      if id ∈ (keepPaired targets paired rules).2 ∧ id ∉ paired then 1 else 0 := by
  induction rules generalizing paired with
  | nil => rw [if_neg (by simp [keepPaired])]; rfl
  | cons rule rules ih =>
    rw [keepPaired]
    split
    · rename_i hend
      split
      · exact ih paired
      · rename_i hkeep
        have hnew : rule.outboundID ∉ paired := fun hpaired => hkeep (.inr hpaired)
        dsimp only
        rw [List.countP_cons, ih]
        by_cases hid : rule.outboundID = id
        · subst hid
          have hpaired : rule.outboundID ∈
              (keepPaired targets (rule.outboundID :: paired) rules).2 :=
            (mem_keepPaired targets _ rules _).mpr (.inl List.mem_cons_self)
          rw [if_neg (fun h => h.2 List.mem_cons_self), if_pos (isRuleOf_iff.mpr ⟨hend, rfl⟩),
            if_pos ⟨hpaired, hnew⟩]
        · have hnot : ¬ isRuleOf id rule = true := fun h => hid (isRuleOf_iff.mp h).2
          rw [if_neg hnot]
          simp [Ne.symm hid]
    · rename_i hother
      have hnot : ¬ isRuleOf id rule = true := fun h => hother (isRuleOf_iff.mp h).1
      dsimp only
      rw [List.countP_cons_of_neg hnot]
      exact ih paired

/-- A list with one rule at most of each id, and of targets alone, is kept as it is. -/
theorem keepPaired_eq_self (paired : List ℤ) {rules : List RouteRule}
    (htargets : ∀ rule ∈ rules, rule.type = .endpointPreferredBy →
      rule.outboundID ∈ targets ∧ rule.outboundID ∉ paired)
    (honce : ∀ id, rules.countP (isRuleOf id) ≤ 1) : (keepPaired targets paired rules).1 = rules := by
  induction rules generalizing paired with
  | nil => rfl
  | cons rule rules ih =>
    have hrest : ∀ id, rules.countP (isRuleOf id) ≤ 1 := by
      intro id
      have := honce id
      rw [List.countP_cons] at this
      omega
    have hlater := fun r hr => htargets r (List.mem_cons_of_mem rule hr)
    rw [keepPaired]
    split
    · rename_i hend
      obtain ⟨htarget, hnew⟩ := htargets rule List.mem_cons_self hend
      rw [if_neg (by simp [htarget, hnew])]
      refine congrArg _ (ih _ (fun r hr hendr => ?_) hrest)
      refine ⟨(hlater r hr hendr).1, fun hmem => ?_⟩
      rcases List.mem_cons.mp hmem with hsame | hpaired
      · have hcount := honce rule.outboundID
        rw [List.countP_cons_of_pos (isRuleOf_iff.mpr ⟨hend, rfl⟩)] at hcount
        have hpos : 0 < rules.countP (isRuleOf rule.outboundID) :=
          List.countP_pos_iff.mpr ⟨r, hr, isRuleOf_iff.mpr ⟨hendr, hsame⟩⟩
        omega
      · exact (hlater r hr hendr).2 hpaired
    · exact congrArg _ (ih paired hlater hrest)

end Pass

/-! ## A synced profile -/

section Sync

variable (stores : Stores) (getProfile : Profiles)

/-- The targets without a rule. -/
def missingTargets (profile : RouteProfile) : List ℤ :=
  (endpointRuleTargets getProfile profile).filter fun id => !profile.Rules.any (isRuleOf id)

/-- What a sync makes of a profile. -/
structure SyncedFrom (profile synced : RouteProfile) : Prop where
  /-- All but the rules is left. -/
  settings : { synced with Rules := profile.Rules } = profile
  once : ∀ id ∈ endpointRuleTargets getProfile profile, synced.Rules.countP (isRuleOf id) = 1
  noOther : ∀ rule ∈ synced.Rules, rule.type = .endpointPreferredBy →
    rule.outboundID ∈ endpointRuleTargets getProfile profile
  /-- Every rule of another kind is kept. -/
  others : synced.Rules.filter (fun rule => rule.type ≠ .endpointPreferredBy) =
    profile.Rules.filter fun rule => rule.type ≠ .endpointPreferredBy
  /-- The kept rules stand in their order, the rules of the missing targets after them. -/
  order : ∃ kept, kept.Sublist profile.Rules ∧
    synced.Rules = kept ++ (missingTargets getProfile profile).map (MakeEndpointRule stores)

variable {stores getProfile}

theorem endpointRuleTargets_Rules (profile : RouteProfile) (rules : List RouteRule) :
    endpointRuleTargets getProfile { profile with Rules := rules } =
      endpointRuleTargets getProfile profile := rfl

theorem SyncEndpointRules_eq {profile : RouteProfile} (hraw : profile.isRaw = false) :
    SyncEndpointRules stores getProfile profile =
      { profile with Rules :=
          (keepPaired (endpointRuleTargets getProfile profile) [] profile.Rules).1 ++
            (missingTargets getProfile profile).map (MakeEndpointRule stores) } := by
  have hmissing : ((endpointRuleTargets getProfile profile).filter
      (· ∉ (keepPaired (endpointRuleTargets getProfile profile) [] profile.Rules).2)) =
      missingTargets getProfile profile := by
    refine List.filter_congr fun id hid => ?_
    rw [Bool.eq_iff_iff, decide_eq_true_eq, mem_keepPaired, Bool.not_eq_true',
      ← Bool.not_eq_true, List.any_eq_true]
    simp [hid]
  unfold SyncEndpointRules
  rw [if_neg (by simp [hraw])]
  dsimp only
  rw [hmissing]

theorem mem_missingTargets {profile : RouteProfile} {id : ℤ} :
    id ∈ missingTargets getProfile profile ↔
      id ∈ endpointRuleTargets getProfile profile ∧
        ¬ ∃ rule ∈ profile.Rules, isRuleOf id rule = true := by
  simp [missingTargets]

theorem nodup_missingTargets (profile : RouteProfile) :
    (missingTargets getProfile profile).Nodup :=
  (nodup_endpointRuleTargets getProfile profile).filter _

theorem countP_made (id : ℤ) (ids : List ℤ) :
    (ids.map (MakeEndpointRule stores)).countP (isRuleOf id) = ids.count id := by
  rw [List.countP_map, List.count]
  refine List.countP_congr fun a _ => ?_
  simp only [Function.comp_apply, isRuleOf_iff, beq_iff_eq]
  exact ⟨And.right, fun h => ⟨rfl, h⟩⟩

variable (stores getProfile) in
theorem syncedFrom (profile : RouteProfile) (hraw : profile.isRaw = false) :
    SyncedFrom stores getProfile profile (SyncEndpointRules stores getProfile profile) := by
  rw [SyncEndpointRules_eq hraw]
  refine ⟨rfl, fun id hid => ?_, fun rule hrule hend => ?_, ?_, ?_⟩
  · dsimp only
    rw [List.countP_append, countP_keepPaired, countP_made]
    by_cases hruled : ∃ rule ∈ profile.Rules, isRuleOf id rule = true
    · rw [if_pos ⟨(mem_keepPaired _ _ _ _).mpr (.inr ⟨hid, hruled⟩), List.not_mem_nil⟩,
        List.count_eq_zero.mpr fun hmem => (mem_missingTargets.mp hmem).2 hruled]
    · have hunpaired : id ∉ (keepPaired (endpointRuleTargets getProfile profile) []
          profile.Rules).2 := by
        rw [mem_keepPaired]
        exact fun h => h.elim List.not_mem_nil fun h => hruled h.2
      rw [if_neg fun h => hunpaired h.1]
      rw [List.count_eq_one_of_mem (nodup_missingTargets profile)
        (mem_missingTargets.mpr ⟨hid, hruled⟩)]
  · rcases List.mem_append.mp hrule with hkept | hmade
    · have hpos : 0 < (keepPaired (endpointRuleTargets getProfile profile) []
          profile.Rules).1.countP (isRuleOf rule.outboundID) :=
        List.countP_pos_iff.mpr ⟨rule, hkept, isRuleOf_iff.mpr ⟨hend, rfl⟩⟩
      rw [countP_keepPaired] at hpos
      split at hpos
      · rename_i hpaired
        exact ((mem_keepPaired _ _ _ _).mp hpaired.1).elim (absurd · List.not_mem_nil) And.left
      · exact absurd hpos (lt_irrefl 0)
    · obtain ⟨id, hid, rfl⟩ := List.mem_map.mp hmade
      exact (mem_missingTargets.mp hid).1
  · dsimp only
    rw [List.filter_append, keepPaired_others]
    have hnone : ((missingTargets getProfile profile).map (MakeEndpointRule stores)).filter
        (fun rule => rule.type ≠ .endpointPreferredBy) = [] := by
      rw [List.filter_eq_nil_iff]
      intro rule hrule
      obtain ⟨id, -, rfl⟩ := List.mem_map.mp hrule
      simp [MakeEndpointRule]
    rw [hnone, List.append_nil]
  · exact ⟨_, keepPaired_sublist _ _ _, rfl⟩

/-- A synced profile is left as it is. -/
theorem SyncedFrom.sync {profile synced : RouteProfile}
    (h : SyncedFrom stores getProfile profile synced) (hraw : profile.isRaw = false) :
    SyncEndpointRules stores getProfile synced = synced := by
  have hraw' : synced.isRaw = false := by
    rw [← hraw, ← h.settings]
  have htargets : endpointRuleTargets getProfile synced = endpointRuleTargets getProfile profile := by
    rw [← endpointRuleTargets_Rules synced profile.Rules, h.settings]
  have hkept : (keepPaired (endpointRuleTargets getProfile synced) [] synced.Rules).1 =
      synced.Rules := by
    refine keepPaired_eq_self _ [] (fun rule hrule hend => ?_) fun id => ?_
    · exact ⟨htargets ▸ h.noOther rule hrule hend, List.not_mem_nil⟩
    · by_cases hid : id ∈ endpointRuleTargets getProfile profile
      · exact (h.once id hid).le
      · refine le_of_eq_of_le (List.countP_eq_zero.mpr fun rule hrule hof => hid ?_) zero_le_one
        obtain ⟨hend, rfl⟩ := isRuleOf_iff.mp hof
        exact h.noOther rule hrule hend
  have hmissing : missingTargets getProfile synced = [] := by
    refine List.eq_nil_iff_forall_not_mem.mpr fun id hid => ?_
    obtain ⟨htarget, hnone⟩ := mem_missingTargets.mp hid
    have hone := h.once id (htargets ▸ htarget)
    exact hnone (List.countP_pos_iff.mp (hone ▸ Nat.zero_lt_one))
  rw [SyncEndpointRules_eq hraw', hkept, hmissing, List.map_nil, List.append_nil]

end Sync

/-! ## What is rendered -/

section Rendering

variable (stores : Stores)

theorem notMem_keys_append {k : String} {a b : JsonObject} (ha : k ∉ a.keys) (hb : k ∉ b.keys) :
    k ∉ (a ++ b).keys := by
  rw [JsonObject.keys_append, List.mem_append]
  exact not_or.mpr ⟨ha, hb⟩

theorem notMem_keys_member {c : Prop} [Decidable c] {key k : String} {value : Json} (h : k ≠ key) :
    k ∉ (JsonObject.member c key value).keys :=
  fun hmem => h (JsonObject.mem_keys_member.mp hmem).2

theorem preferred_by_notMem_conditions (forView : Bool) (rule : RouteRule) :
    "preferred_by" ∉ (conditions stores forView rule).keys := by
  unfold conditions
  repeat' apply notMem_keys_append
  all_goals exact notMem_keys_member (by decide)

theorem preferred_by_notMem_rejectMembers (rule : RouteRule) :
    "preferred_by" ∉ (rejectMembers rule).keys := by
  unfold rejectMembers
  apply notMem_keys_append
  · exact notMem_keys_member (by decide)
  · exact notMem_keys_member (by decide)

theorem preferred_by_notMem_routeMembers (rule : RouteRule) :
    "preferred_by" ∉ (routeMembers rule).keys := by
  unfold routeMembers
  repeat' apply notMem_keys_append
  all_goals exact notMem_keys_member (by decide)

theorem preferred_by_notMem_outboundMember {forView : Bool} {tag : Text} {outboundID : ℤ}
    {outbound : JsonObject}
    (h : outboundMember stores forView tag outboundID = some outbound) :
    "preferred_by" ∉ outbound.keys := by
  have hkey (value : Json) : "preferred_by" ∉ JsonObject.keys [("outbound", value)] := by simp
  unfold outboundMember at h
  split at h
  · obtain ⟨t, -, rfl⟩ := Option.map_eq_some_iff.mp h
    exact hkey _
  · split at h
    · cases h
      exact hkey _
    · cases h
      exact hkey _

/-- Only the rule of an endpoint names a preference. -/
theorem preferred_by_notMem_renderRest (forView : Bool) (tag : Text) (rule : RouteRule) :
    "preferred_by" ∉ (renderRest stores forView tag rule).keys := by
  have hobj : "preferred_by" ∉
      JsonObject.keys (conditions stores forView rule ++ [("action", Json.str rule.action)]) :=
    notMem_keys_append (preferred_by_notMem_conditions stores forView rule) (by simp)
  have hrejects : "preferred_by" ∉
      JsonObject.keys (if rule.action = actionReject then rejectMembers rule else []) := by
    split
    · exact preferred_by_notMem_rejectMembers rule
    · exact List.not_mem_nil
  have hlast : "preferred_by" ∉ JsonObject.keys
      ((if rule.action = actionSniff then
          JsonObject.member rule.sniffOverrideDest "override_destination" (.bool true) else []) ++
        (if rule.action = actionResolve then textMember "strategy" rule.strategy else [])) := by
    apply notMem_keys_append
    · split
      · exact notMem_keys_member (by decide)
      · exact List.not_mem_nil
    · split
      · exact notMem_keys_member (by decide)
      · exact List.not_mem_nil
  have hroute := preferred_by_notMem_routeMembers rule
  unfold renderRest
  dsimp only
  split
  · cases houtbound : outboundMember stores forView tag rule.outboundID with
    | none => exact List.not_mem_nil
    | some outbound =>
      have hout := preferred_by_notMem_outboundMember stores houtbound
      exact notMem_keys_append (notMem_keys_append (notMem_keys_append
        (notMem_keys_append hobj hrejects) hroute) hout) hlast
  · split
    · exact notMem_keys_append (notMem_keys_append (notMem_keys_append hobj hrejects) hroute) hlast
    · exact notMem_keys_append (notMem_keys_append hobj hrejects) hlast

/-- The rendered rule of an endpoint with the tag. -/
def endpointObject (tag : Text) : JsonObject :=
  [("preferred_by", .arr [.str tag]), ("action", .str actionRoute), ("outbound", .str tag)]

/-- Each endpoint rule among the objects is one of the rules, whose endpoint has its tag. -/
def TaggedOnly (outboundMap : List (ℤ × Text)) (rules : List RouteRule)
    (objects : List JsonObject) : Prop :=
  ∀ object ∈ objects, "preferred_by" ∈ object.keys →
    ∃ rule ∈ rules, ∃ tag, rule.type = .endpointPreferredBy ∧ tag ≠ [] ∧
      outboundMap.lookup rule.outboundID = some tag ∧ object = endpointObject tag

variable {stores}

theorem TaggedOnly.append {outboundMap : List (ℤ × Text)} {rules : List RouteRule}
    {a b : List JsonObject} (ha : TaggedOnly outboundMap rules a)
    (hb : TaggedOnly outboundMap rules b) : TaggedOnly outboundMap rules (a ++ b) :=
  fun object hobject => (List.mem_append.mp hobject).elim (ha object) (hb object)

theorem taggedOnly_adblock (outboundMap : List (ℤ × Text)) (rules : List RouteRule) :
    TaggedOnly outboundMap rules [createAdblockRule] := by
  intro object hobject hkey
  rw [List.mem_singleton.mp hobject] at hkey
  simp [createAdblockRule] at hkey

theorem TaggedOnly.cons {outboundMap : List (ℤ × Text)} {rules : List RouteRule} {rule : RouteRule}
    {objects : List JsonObject} (h : TaggedOnly outboundMap rules objects) :
    TaggedOnly outboundMap (rule :: rules) objects := by
  intro object hobject hkey
  obtain ⟨r, hr, rest⟩ := h object hobject hkey
  exact ⟨r, List.mem_cons_of_mem _ hr, rest⟩

/-- A rule that is rendered for the core. -/
theorem taggedOnly_get_rule_json {outboundMap : List (ℤ × Text)} (item : RouteRule)
    (rules : List RouteRule) :
    TaggedOnly outboundMap (item :: rules)
      [(get_rule_json stores false ((outboundMap.lookup item.outboundID).getD []) item).1] := by
  intro object hobject hkey
  rw [List.mem_singleton.mp hobject] at hkey ⊢
  by_cases hend : item.type = .endpointPreferredBy
  · unfold get_rule_json endpointJson at hkey ⊢
    simp only [hend, if_true, Bool.false_eq_true, if_false] at hkey ⊢
    cases hlookup : outboundMap.lookup item.outboundID with
    | none => simp [hlookup] at hkey
    | some tag =>
      simp only [hlookup, Option.getD_some] at hkey ⊢
      by_cases htag : tag = []
      · simp [htag] at hkey
      · exact ⟨item, List.mem_cons_self, tag, hend, htag, hlookup, if_neg htag⟩
  · unfold get_rule_json at hkey
    rw [if_neg hend] at hkey
    exact absurd hkey (preferred_by_notMem_renderRest stores false _ _)

/-- The loop of a profile, when the core's config is generated. -/
theorem renderRules_taggedOnly {env : RenderEnv} (hview : env.forView = false)
    (rules : List RouteRule) {added : Bool} {res : List JsonObject} {answer : Bool × List JsonObject}
    (h : (renderRules stores env added res rules).1 = some answer) :
    ∃ rendered, answer.2 = res ++ rendered ∧ TaggedOnly env.outboundMap rules rendered := by
  induction rules generalizing added res with
  | nil =>
    rw [renderRules] at h
    cases h
    exact ⟨[], (List.append_nil res).symm, fun object hobject => absurd hobject List.not_mem_nil⟩
  | cons item later ih =>
    have hpass {added : Bool} {res : List JsonObject}
        (h : (renderRules stores env added res later).1 = some answer) :
        ∃ rendered, answer.2 = res ++ rendered ∧
          TaggedOnly env.outboundMap (item :: later) rendered := by
      obtain ⟨rendered, heq, htagged⟩ := ih h
      exact ⟨rendered, heq, htagged.cons⟩
    rw [renderRules] at h
    split at h
    · exact hpass h
    · split at h
      · exact hpass h
      · dsimp only at h
        split at h
        · exact hpass h
        · split at h
          · cases h
          · obtain ⟨rendered, heq, htagged⟩ := hpass h
            have hitem : TaggedOnly env.outboundMap (item :: later) [(get_rule_json stores env.forView
                ((env.outboundMap.lookup item.outboundID).getD []) item).1] := by
              rw [hview]
              exact taggedOnly_get_rule_json item later
            rw [heq]
            split
            · exact ⟨_, by rw [List.append_assoc, List.append_assoc],
                (taggedOnly_adblock _ _).append (hitem.append htagged)⟩
            · exact ⟨_, by rw [List.append_assoc], hitem.append htagged⟩

theorem get_route_rules_taggedOnly {env : RenderEnv} (hview : env.forView = false)
    (rules : List RouteRule) :
    TaggedOnly env.outboundMap rules (get_route_rules stores env rules).1 := by
  unfold get_route_rules
  split
  · exact fun object hobject => absurd hobject List.not_mem_nil
  · rename_i hsome
    obtain ⟨rendered, heq, htagged⟩ :=
      renderRules_taggedOnly hview rules (congrArg Prod.fst hsome)
    dsimp only at heq ⊢
    rw [heq, List.nil_append]
    split
    · exact htagged.append (taggedOnly_adblock _ _)
    · exact htagged

end Rendering

/-! ## The guarantee -/

section Guarantee

variable (stores : Stores) (getProfile : Profiles)

/-- **A sync leaves one rule for each target** and none for another endpoint.  Every other rule is
kept, the kept rules stand in their order with the missing ones after them, and a second sync
changes nothing.  What is generated for the core then has endpoint rules of targets with a tag
alone. -/
theorem SyncEndpointRules_synced (profile : RouteProfile) (hraw : profile.isRaw = false) :
    let synced := SyncEndpointRules stores getProfile profile
    SyncedFrom stores getProfile profile synced ∧
      SyncEndpointRules stores getProfile synced = synced ∧
      ∀ env : RenderEnv, env.forView = false →
        TaggedOnly env.outboundMap synced.Rules (get_route_rules stores env synced.Rules).1 := by
  have hsynced := syncedFrom stores getProfile profile hraw
  exact ⟨hsynced, hsynced.sync hraw, fun env hview => get_route_rules_taggedOnly hview _⟩

end Guarantee

/-- Profile 1 is an OpenVPN endpoint. -/
def oneVpn : Profiles := fun id => if id = 1 then some { type := "openvpn".toList } else none

def oneVpnStores : Stores where
  displayName := fun id => if id = 1 then some "office".toList else none
  get_rule_set_name := id

/-- A custom rule, and a rule of an endpoint that is gone. -/
def orphanProfile : RouteProfile where
  Rules := [{ name := "a".toList, domain := ["a.org".toList] },
    { type := .endpointPreferredBy, outboundID := 7 }]
  endpointProfileIDs := [1, 1]

theorem SyncEndpointRules_synced_orphan :
    orphanProfile.isRaw = false ∧
      let synced := SyncEndpointRules oneVpnStores oneVpn orphanProfile
      SyncedFrom oneVpnStores oneVpn orphanProfile synced ∧
        SyncEndpointRules oneVpnStores oneVpn synced = synced ∧
        ∀ env : RenderEnv, env.forView = false →
          TaggedOnly env.outboundMap synced.Rules
            (get_route_rules oneVpnStores env synced.Rules).1 :=
  ⟨rfl, SyncEndpointRules_synced oneVpnStores oneVpn orphanProfile rfl⟩

/-- The view takes no outbound map. -/
def viewEnv : RenderEnv where
  forView := true
  applyProfileRules := true
  adblock_enable := false
  outboundMap := []

/-- The view shows the rule of an endpoint by its name, whether it has a tag or not. -/
theorem view_showsUntagged :
    ¬ ∀ (stores : Stores) (getProfile : Profiles) (profile : RouteProfile), profile.isRaw = false →
      ∀ env : RenderEnv,
        TaggedOnly env.outboundMap (SyncEndpointRules stores getProfile profile).Rules
          (get_route_rules stores env (SyncEndpointRules stores getProfile profile).Rules).1 := by
  intro h
  have hrules : (SyncEndpointRules oneVpnStores oneVpn { endpointProfileIDs := [1] }).Rules =
      [MakeEndpointRule oneVpnStores 1] := by
    simp [SyncEndpointRules, endpointRuleTargets, addTargets, keepPaired]
  have hrendered : (get_route_rules oneVpnStores viewEnv [MakeEndpointRule oneVpnStores 1]).1 =
      [endpointObject "office".toList] := rfl
  have htagged := h oneVpnStores oneVpn { endpointProfileIDs := [1] } rfl viewEnv
  rw [hrules, hrendered] at htagged
  obtain ⟨rule, -, tag, -, -, hlookup, -⟩ :=
    htagged _ (List.mem_singleton_self _) (by simp [endpointObject])
  cases hlookup

end Throned.Routes
