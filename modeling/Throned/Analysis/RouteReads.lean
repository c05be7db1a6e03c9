import Throned.Analysis.OwnedRules

/-!
# What the Simple mode reads

The ids that the screen shows are those whose owned rules agree on an outbound.  The entry of
such an id gathers, list by list, what its rules hold.
-/

set_option autoImplicit false

namespace Throned.Routes

open Throned.Library

/-! ## The ids that can be edited -/

section Ids

variable (stores : Stores)

/-- The rules of a list that are owned. -/
def ownedOf (rules : List RulePtr) : List RouteRule :=
  (rules.filterMap (Option.map RuleObject.rule)).filter (IsOwned stores)

/-- Two owned rules of the id have different outbounds. -/
def Ambiguous (rules : List RulePtr) (id : Text) : Prop :=
  ∃ a ∈ ownedOf stores rules, ∃ b ∈ ownedOf stores rules,
    routeId a = id ∧ routeId b = id ∧ a.outboundID ≠ b.outboundID

instance (rules : List RulePtr) (id : Text) : Decidable (Ambiguous stores rules id) :=
  inferInstanceAs (Decidable (∃ a ∈ ownedOf stores rules, ∃ b ∈ ownedOf stores rules, _))

variable {stores}

theorem mem_ownedOf {rules : List RulePtr} {rule : RouteRule} :
    rule ∈ ownedOf stores rules ↔
      ∃ object, some ⟨object, rule⟩ ∈ rules ∧ IsOwned stores rule = true := by
  unfold ownedOf
  rw [List.mem_filter, List.mem_filterMap]
  constructor
  · rintro ⟨⟨p, hp, hrule⟩, howned⟩
    obtain ⟨r, rfl, rfl⟩ := Option.map_eq_some_iff.mp hrule
    exact ⟨r.object, hp, howned⟩
  · rintro ⟨object, hp, howned⟩
    exact ⟨⟨_, hp, rfl⟩, howned⟩

theorem ownedOf_append (a b : List RulePtr) :
    ownedOf stores (a ++ b) = ownedOf stores a ++ ownedOf stores b := by
  unfold ownedOf
  rw [List.filterMap_append, List.filter_append]

theorem ownedOf_singleton_owned {rule : RuleObject} (h : IsOwned stores rule.rule = true) :
    ownedOf stores [some rule] = [rule.rule] := List.filter_cons_of_pos h

theorem ownedOf_singleton_foreign {p : RulePtr}
    (h : ∀ rule, p = some rule → IsOwned stores rule.rule = false) : ownedOf stores [p] = [] := by
  cases p with
  | none => rfl
  | some rule => exact List.filter_cons_of_neg (by simp [h rule rfl])

/-- What the loop has found after the owned rules of a list. -/
structure Found (stores : Stores) (rules : List RulePtr) (found : List (Text × ℤ) × List Text) :
    Prop where
  missing : ∀ id, found.1.lookup id = none ↔ ∀ r ∈ ownedOf stores rules, routeId r ≠ id
  target : ∀ id outbound, found.1.lookup id = some outbound →
    ∃ r ∈ ownedOf stores rules, routeId r = id ∧ r.outboundID = outbound
  ambiguous : ∀ id, id ∈ found.2 ↔ Ambiguous stores rules id

theorem lookup_replace {β : Type*} (entries : List (Text × β)) (k id : Text) (v : β) :
    ((k, v) :: entries.filter (·.1 ≠ k)).lookup id =
      if id = k then some v else entries.lookup id := by
  by_cases hid : id = k
  · rw [if_pos hid, hid, List.lookup_cons_self]
  · have hne : (id == k) = false := beq_eq_false_iff_ne.mpr hid
    rw [if_neg hid, List.lookup_cons, hne]
    dsimp only
    induction entries with
    | nil => rfl
    | cons e entries ih =>
      by_cases he : e.1 = k
      · have hskip : (id == e.1) = false := beq_eq_false_iff_ne.mpr fun h => hid (h.trans he)
        rw [List.filter_cons_of_neg (by simp [he]), ih, ← Prod.mk.eta (p := e), List.lookup_cons,
          hskip]
      · rw [List.filter_cons_of_pos (by simp [he]), ← Prod.mk.eta (p := e), List.lookup_cons,
          List.lookup_cons, ih]

theorem ambiguous_append_owned {rules : List RulePtr} {rule : RouteRule} {object : ℕ}
    (howned : IsOwned stores rule = true) (id : Text) :
    Ambiguous stores (rules ++ [some ⟨object, rule⟩]) id ↔
      Ambiguous stores rules id ∨
        (id = routeId rule ∧
          ∃ a ∈ ownedOf stores rules, routeId a = id ∧ a.outboundID ≠ rule.outboundID) := by
  unfold Ambiguous
  rw [ownedOf_append, ownedOf_singleton_owned (show IsOwned stores (⟨object, rule⟩ : RuleObject).rule = true from howned)]
  constructor
  · rintro ⟨a, ha, b, hb, hida, hidb, hne⟩
    rcases List.mem_append.mp ha with ha | ha
    · rcases List.mem_append.mp hb with hb | hb
      · exact .inl ⟨a, ha, b, hb, hida, hidb, hne⟩
      · rw [List.mem_singleton.mp hb] at hidb hne
        exact .inr ⟨hidb.symm, a, ha, hida, hne⟩
    · rw [List.mem_singleton.mp ha] at hida hne
      rcases List.mem_append.mp hb with hb | hb
      · exact .inr ⟨hida.symm, b, hb, hidb, hne.symm⟩
      · rw [List.mem_singleton.mp hb] at hne
        exact absurd rfl hne
  · rintro (⟨a, ha, b, hb, hboth⟩ | ⟨hid, a, ha, hida, hne⟩)
    · exact ⟨a, List.mem_append_left _ ha, b, List.mem_append_left _ hb, hboth⟩
    · exact ⟨a, List.mem_append_left _ ha, rule, by simp, hida, hid.symm, hne⟩

theorem targetsStep_owned {rule : RouteRule} {object : ℕ} (howned : IsOwned stores rule = true)
    (found : List (Text × ℤ) × List Text) :
    targetsStep stores found (some ⟨object, rule⟩) =
      ((routeId rule, rule.outboundID) :: found.1.filter (·.1 ≠ routeId rule),
        if (found.1.lookup (routeId rule)).any (· ≠ rule.outboundID) then
          routeId rule :: found.2 else found.2) := by
  have hpos : ¬ (!IsOwned stores rule) = true := by simp [howned]
  unfold targetsStep
  exact if_neg hpos

/-- The last outbound of an id differs from the next one exactly when one of them does, or the
id was ambiguous before. -/
theorem Found.ambiguous_step {rules : List RulePtr} {found : List (Text × ℤ) × List Text}
    (h : Found stores rules found) (rule : RouteRule) :
    (Ambiguous stores rules (routeId rule) ∨
        (found.1.lookup (routeId rule)).any (· ≠ rule.outboundID) = true) ↔
      (Ambiguous stores rules (routeId rule) ∨ ∃ a ∈ ownedOf stores rules,
        routeId a = routeId rule ∧ a.outboundID ≠ rule.outboundID) := by
  constructor
  · rintro (hold | hnew)
    · exact .inl hold
    · obtain ⟨outbound, hlookup, hne⟩ := (Option.any_eq_true ..).mp hnew
      obtain ⟨r, hr, hidr, hout⟩ := h.target _ _ hlookup
      exact .inr ⟨r, hr, hidr, fun hsame => of_decide_eq_true hne (hout.symm.trans hsame)⟩
  · rintro (hold | ⟨a, ha, hida, hne⟩)
    · exact .inl hold
    · cases hlookup : found.1.lookup (routeId rule) with
      | none => exact absurd hida ((h.missing _).mp hlookup a ha)
      | some outbound =>
        obtain ⟨r, hr, hidr, hout⟩ := h.target _ _ hlookup
        by_cases hsame : outbound = rule.outboundID
        · refine .inl ⟨a, ha, r, hr, hida, hidr, ?_⟩
          rw [hout, hsame]
          exact hne
        · exact .inr (by simpa using hsame)

theorem Found.step_owned {rules : List RulePtr} {found : List (Text × ℤ) × List Text}
    (h : Found stores rules found) {rule : RouteRule} {object : ℕ}
    (howned : IsOwned stores rule = true) :
    Found stores (rules ++ [some ⟨object, rule⟩])
      (targetsStep stores found (some ⟨object, rule⟩)) := by
  have hrules : ownedOf stores (rules ++ [some ⟨object, rule⟩]) =
      ownedOf stores rules ++ [rule] := by
    rw [ownedOf_append, ownedOf_singleton_owned (show IsOwned stores (⟨object, rule⟩ : RuleObject).rule = true from howned)]
  rw [targetsStep_owned howned]
  refine ⟨fun id => ?_, fun id outbound hlookup => ?_, fun id => ?_⟩
  · rw [lookup_replace, hrules]
    by_cases hid : id = routeId rule
    · rw [if_pos hid]
      exact iff_of_false (Option.some_ne_none _) fun hall => hall rule (by simp) hid.symm
    · rw [if_neg hid, h.missing, List.forall_mem_append]
      refine (and_iff_left ?_).symm
      intro r hr
      rw [List.mem_singleton.mp hr]
      exact Ne.symm hid
  · rw [lookup_replace] at hlookup
    rw [hrules]
    by_cases hid : id = routeId rule
    · rw [if_pos hid] at hlookup
      exact ⟨rule, by simp, hid.symm, Option.some.inj hlookup⟩
    · rw [if_neg hid] at hlookup
      obtain ⟨r, hr, hrid, hout⟩ := h.target id outbound hlookup
      exact ⟨r, List.mem_append_left _ hr, hrid, hout⟩
  · rw [ambiguous_append_owned howned]
    by_cases hid : id = routeId rule
    · subst hid
      have hstep := h.ambiguous_step rule
      simp only [true_and]
      rw [← hstep, ← h.ambiguous]
      split
      · rename_i hany
        exact iff_of_true List.mem_cons_self (.inr hany)
      · rename_i hany
        exact (or_iff_left hany).symm
    · rw [← h.ambiguous]
      simp only [hid, false_and, or_false]
      split
      · rw [List.mem_cons]
        exact or_iff_right hid
      · exact Iff.rfl

theorem Found.step_foreign {rules : List RulePtr} {found : List (Text × ℤ) × List Text}
    (h : Found stores rules found) {p : RulePtr}
    (hforeign : ∀ rule, p = some rule → IsOwned stores rule.rule = false) :
    Found stores (rules ++ [p]) (targetsStep stores found p) := by
  have hrules : ownedOf stores (rules ++ [p]) = ownedOf stores rules := by
    rw [ownedOf_append, ownedOf_singleton_foreign hforeign, List.append_nil]
  have hstep : targetsStep stores found p = found := by
    cases p with
    | none => rfl
    | some rule => exact if_pos (by simp [hforeign rule rfl])
  rw [hstep]
  refine ⟨?_, ?_, ?_⟩
  · rw [hrules]
    exact h.missing
  · rw [hrules]
    exact h.target
  · unfold Ambiguous
    rw [hrules]
    exact h.ambiguous

theorem found_foldl (rules : List RulePtr) :
    Found stores rules (rules.foldl (targetsStep stores) ([], [])) := by
  induction rules using List.reverseRecOn with
  | nil =>
    refine ⟨fun id => iff_of_true rfl fun r hr => (List.not_mem_nil hr).elim,
      fun id outbound hlookup => (Option.some_ne_none _ hlookup.symm).elim, fun id => iff_of_false List.not_mem_nil ?_⟩
    rintro ⟨a, ha, -⟩
    cases ha
  | append_singleton rules p ih =>
    rw [List.foldl_append, List.foldl_cons, List.foldl_nil]
    by_cases howned : ∃ rule, p = some rule ∧ IsOwned stores rule.rule = true
    · obtain ⟨⟨object, rule⟩, rfl, howned⟩ := howned
      exact ih.step_owned howned
    · exact ih.step_foreign fun rule hrule =>
        Bool.eq_false_iff.mpr fun hown => howned ⟨rule, hrule, hown⟩

/-- **The ids of the screen** are those of the owned rules, without the ambiguous ones. -/
theorem mem_editableIds {rules : List RulePtr} {id : Text} :
    id ∈ editableIds stores rules ↔
      (∃ r ∈ ownedOf stores rules, routeId r = id) ∧ ¬ Ambiguous stores rules id := by
  have hfound : Found stores rules (rules.foldl (targetsStep stores) ([], [])) := found_foldl rules
  unfold editableIds
  dsimp only
  rw [List.mem_filter, decide_eq_true_eq, hfound.ambiguous]
  refine and_congr_left fun _ => ?_
  have hmissing := hfound.missing id
  rw [List.lookup_eq_none_iff] at hmissing
  constructor
  · intro hmem
    obtain ⟨e, he, rfl⟩ := List.mem_map.mp hmem
    by_contra hnone
    have hall := hmissing.mpr fun r hr hid => hnone ⟨r, hr, hid⟩
    exact bne_iff_ne.mp (hall e he) rfl
  · rintro ⟨r, hr, hid⟩
    by_contra hnone
    refine (hmissing.mp fun e he => bne_iff_ne.mpr fun heq => hnone ?_) r hr hid
    exact heq ▸ List.mem_map_of_mem he

theorem isEditable_iff {rules : List RulePtr} {p : RulePtr} (hp : p ∈ rules) :
    isEditable stores (editableIds stores rules) p = true ↔
      ∃ r, p = some r ∧ IsOwned stores r.rule = true ∧
        ¬ Ambiguous stores rules (routeId r.rule) := by
  unfold isEditable
  cases p with
  | none => simp
  | some r =>
    simp only [Option.any_some, Bool.and_eq_true, decide_eq_true_eq, mem_editableIds]
    constructor
    · rintro ⟨howned, -, hsettled⟩
      exact ⟨r, rfl, howned, hsettled⟩
    · rintro ⟨r', hr', howned, hsettled⟩
      obtain rfl := Option.some.inj hr'
      exact ⟨howned, ⟨r.rule, mem_ownedOf.mpr ⟨r.object, hp, howned⟩, rfl⟩, hsettled⟩

theorem mem_editableRules {rules : List RulePtr} {rule : RouteRule} :
    rule ∈ editableRules stores rules ↔
      rule ∈ ownedOf stores rules ∧ ¬ Ambiguous stores rules (routeId rule) := by
  unfold editableRules
  rw [List.mem_filterMap]
  constructor
  · rintro ⟨p, hp, hrule⟩
    rw [List.mem_filter] at hp
    obtain ⟨r, rfl, howned, hsettled⟩ := (isEditable_iff hp.1).mp hp.2
    obtain rfl := Option.some.inj hrule
    exact ⟨mem_ownedOf.mpr ⟨r.object, hp.1, howned⟩, hsettled⟩
  · rintro ⟨hrule, hsettled⟩
    obtain ⟨object, hp, howned⟩ := mem_ownedOf.mp hrule
    refine ⟨some ⟨object, rule⟩, List.mem_filter.mpr ⟨hp, ?_⟩, rfl⟩
    exact (isEditable_iff hp).mpr ⟨_, rfl, howned, hsettled⟩

end Ids

/-! ## Entries -/

/-- What a rule adds to a list of its entry. -/
def readList (k : MatchKind) (rule : RouteRule) : List Text :=
  if k.names = nameKind rule.name then rule.list k else []

theorem addRule_list (rule : RouteRule) (route : Route) (k : MatchKind) :
    (addRule rule route).list k = route.list k ++ readList k rule := by
  unfold addRule readList nameKind
  split
  · cases k <;> simp [Route.list, RouteRule.list, MatchKind.names]
  · split <;> cases k <;> simp [Route.list, RouteRule.list, MatchKind.names]

theorem addRule_outbound (rule : RouteRule) (route : Route) :
    (addRule rule route).outbound = route.outbound := by
  unfold addRule
  split
  · rfl
  · split <;> rfl

theorem addAll_list (route : Route) (rules : List RouteRule) (k : MatchKind) :
    (routeGrouper.addAll route rules).list k = route.list k ++ rules.flatMap (readList k) := by
  induction rules generalizing route with
  | nil => exact (List.append_nil _).symm
  | cons rule rules ih =>
    have hrest := ih (addRule rule route)
    rw [addRule_list, List.append_assoc] at hrest
    exact hrest

theorem addAll_outbound (route : Route) (rules : List RouteRule) :
    (routeGrouper.addAll route rules).outbound = route.outbound := by
  induction rules generalizing route with
  | nil => rfl
  | cons rule rules ih => exact (ih (addRule rule route)).trans (addRule_outbound rule route)

theorem start_list (rule : RouteRule) (k : MatchKind) : (routeGrouper.start rule).list k = [] := by
  cases k <;> rfl

theorem items_readList {stores : Stores} {rule : RouteRule} (h : IsOwned stores rule = true)
    (k : MatchKind) : items (readList k rule) = items (rule.list k) := by
  unfold readList
  split
  · rfl
  · rename_i hkind
    exact (IsOwned.items_eq_nil h hkind).symm

theorem Route.ext_list {a b : Route} (hid : a.id = b.id) (hout : a.outbound = b.outbound)
    (hlist : ∀ k, a.list k = b.list k) : a = b := by
  have hprocesses := hlist .process_name
  have hpaths := hlist .process_path
  have hsets := hlist .rule_set
  have hdomains := hlist .domain_suffix
  have hcidrs := hlist .ip_cidr
  cases a
  cases b
  simp_all [Route.list]

section Entries

variable {stores : Stores} {rules : List RulePtr} {route : Route}

theorem nodup_Read (stores : Stores) (rules : List RulePtr) :
    ((Read stores rules).map Route.id).Nodup := routeGrouper.nodup_keys_group _

theorem exists_mem_Read {rule : RouteRule} (h : rule ∈ editableRules stores rules) :
    ∃ route ∈ Read stores rules, route.id = routeId rule := by
  have hkey := (routeGrouper.mem_keys_group _ (routeId rule)).mpr (List.mem_map_of_mem h)
  obtain ⟨route, hroute, hid⟩ := List.mem_map.mp hkey
  exact ⟨route, hroute, hid⟩

theorem same_outbound {a b : RouteRule} (ha : a ∈ editableRules stores rules)
    (hb : b ∈ editableRules stores rules) (hid : routeId a = routeId b) :
    a.outboundID = b.outboundID := by
  rw [mem_editableRules] at ha hb
  by_contra hne
  exact ha.2 ⟨a, ha.1, b, hb.1, rfl, hid.symm, hne⟩

/-- **An entry of the screen** has the outbound of its rules and gathers their lists. -/
theorem mem_Read (h : route ∈ Read stores rules) :
    (∀ r ∈ editableRules stores rules, routeId r = route.id → r.outboundID = route.outbound) ∧
      ∀ k, route.list k =
        (routeGrouper.itemsOf route.id (editableRules stores rules)).flatMap (readList k) := by
  obtain ⟨first, later, hitems, hroute⟩ := routeGrouper.mem_group h
  have hfirst : first ∈ routeGrouper.itemsOf route.id (editableRules stores rules) :=
    hitems ▸ List.mem_cons_self
  obtain ⟨hmem, hid⟩ := List.mem_filter.mp hfirst
  have hout : route.outbound = first.outboundID := by
    rw [hroute]
    exact addAll_outbound _ _
  refine ⟨fun r hr hrid => ?_, fun k => ?_⟩
  · rw [hout]
    exact same_outbound hr hmem (hrid.trans (of_decide_eq_true hid).symm)
  · have hlist := addAll_list (routeGrouper.start first) (first :: later) k
    rw [← hroute, start_list, List.nil_append] at hlist
    exact hlist.trans (congrArg _ hitems.symm)

/-- Addresses come from a rule whose name is the entry's. -/
theorem nameKind_of_mem_Read (h : route ∈ Read stores rules) (hhas : route.hasAddresses = true) :
    nameKind (RulePrefix ++ route.id) = .addresses := by
  obtain ⟨k, hk, hlist⟩ : ∃ k : MatchKind, k.names = .addresses ∧ route.list k ≠ [] := by
    by_contra hnone
    have hempty : ∀ k : MatchKind, k.names = .addresses → route.list k = [] := fun k hk => by
      by_contra hne
      exact hnone ⟨k, hk, hne⟩
    have hsets := hempty .rule_set rfl
    have hdomains := hempty .domain_suffix rfl
    have hcidrs := hempty .ip_cidr rfl
    simp_all [Route.hasAddresses, Route.list]
  rw [(mem_Read h).2 k] at hlist
  obtain ⟨value, hvalue⟩ := List.exists_mem_of_ne_nil _ hlist
  obtain ⟨r, hr, hread⟩ := List.mem_flatMap.mp hvalue
  obtain ⟨hmem, hid⟩ := List.mem_filter.mp hr
  have hname : nameKind r.name = .addresses := by
    by_contra hne
    rw [readList, if_neg fun heq => hne (heq.symm.trans hk)] at hread
    cases hread
  obtain ⟨object, -, howned⟩ := mem_ownedOf.mp (mem_editableRules.mp hmem).1
  have heq := name_of_addresses ((isOwned_iff stores r).mp howned).2.2.1 hname
  rw [show routeId r = route.id from of_decide_eq_true hid] at heq
  rw [← heq]
  exact hname

end Entries

/-! ## Matchers -/

/-- One item that sends traffic to an outbound. -/
structure Matcher where
  outbound : ℤ
  kind : MatchKind
  value : Text
  deriving DecidableEq, Repr

def MatcherOf (rule : RouteRule) (m : Matcher) : Prop :=
  m.outbound = rule.outboundID ∧ m.value ∈ items (rule.list m.kind)

instance (rule : RouteRule) (m : Matcher) : Decidable (MatcherOf rule m) := instDecidableAnd

/-- The rules of an entry match what its lists say. -/
theorem matcherOf_ownedRules {route : Route} {m : Matcher} :
    (∃ r ∈ ownedRules route, MatcherOf r m) ↔
      m.outbound = route.outbound ∧ m.value ∈ items (route.list m.kind) := by
  constructor
  · rintro ⟨r, hr, hout, hvalue⟩
    obtain ⟨kind, -, rfl⟩ := mem_ownedRules.mp hr
    rw [writtenRule_outboundID] at hout
    rw [writtenRule_list] at hvalue
    split at hvalue
    · exact ⟨hout, hvalue⟩
    · cases hvalue
  · rintro ⟨hout, hvalue⟩
    have hhas : route.has m.kind.names = true := by
      by_contra hnot
      rw [list_eq_nil_of_not_has (Bool.eq_false_iff.mpr hnot)] at hvalue
      cases hvalue
    refine ⟨writtenRule route m.kind.names, mem_ownedRules.mpr ⟨_, hhas, rfl⟩, ?_, ?_⟩
    · rw [writtenRule_outboundID]
      exact hout
    · rw [writtenRule_list, if_pos rfl]
      exact hvalue

/-- **Reading and writing back keeps the matchers**, those of disabled rules with them. -/
theorem matcherOf_read {stores : Stores} {rules : List RulePtr} {m : Matcher} :
    (∃ route ∈ Read stores rules, ∃ r ∈ ownedRules route, MatcherOf r m) ↔
      ∃ r ∈ editableRules stores rules, MatcherOf r m := by
  constructor
  · rintro ⟨route, hroute, hrules⟩
    obtain ⟨hout, hvalue⟩ := matcherOf_ownedRules.mp hrules
    rw [(mem_Read hroute).2, items_flatMap] at hvalue
    obtain ⟨r, hr, hread⟩ := List.mem_flatMap.mp hvalue
    obtain ⟨hmem, hid⟩ := List.mem_filter.mp hr
    obtain ⟨object, -, howned⟩ := mem_ownedOf.mp (mem_editableRules.mp hmem).1
    rw [items_readList howned] at hread
    exact ⟨r, hmem, hout.trans ((mem_Read hroute).1 r hmem (of_decide_eq_true hid)).symm, hread⟩
  · rintro ⟨r, hmem, hout, hvalue⟩
    obtain ⟨route, hroute, hid⟩ := exists_mem_Read hmem
    obtain ⟨object, -, howned⟩ := mem_ownedOf.mp (mem_editableRules.mp hmem).1
    refine ⟨route, hroute, matcherOf_ownedRules.mpr ⟨?_, ?_⟩⟩
    · exact hout.trans ((mem_Read hroute).1 r hmem hid.symm)
    · rw [(mem_Read hroute).2, items_flatMap]
      refine List.mem_flatMap.mpr ⟨r, List.mem_filter.mpr ⟨hmem, decide_eq_true hid.symm⟩, ?_⟩
      rw [items_readList howned]
      exact hvalue

end Throned.Routes
