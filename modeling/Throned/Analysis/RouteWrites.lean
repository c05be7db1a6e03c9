import Throned.Analysis.RouteReads

/-!
# What a write of the Simple mode keeps

A write replaces the rules of the ids on the screen by new ones.  The other rules stay, and owned
ones among them stay ambiguous, so the screen reads back what was written.  Two things are lost on
the way: the addresses of an entry whose name reads as one of processes, and that a rule was
disabled.
-/

set_option autoImplicit false

namespace Throned.Routes

open Throned.Library
open Throned.Configs (directID)

variable {stores : Stores} {rules : List RulePtr} {routes : List Route}

/-- The rules that the screen does not read. -/
def foreign (stores : Stores) (rules : List RulePtr) : List RulePtr :=
  rules.filter fun p => !isEditable stores (editableIds stores rules) p

/-! ## The shape of a write -/

/-- The new rules go between foreign ones; where does not depend on what is written. -/
theorem exists_write (stores : Stores) (rules : List RulePtr) :
    ∃ before after, before ++ after = foreign stores rules ∧
      ∀ fresh routes, Write stores fresh rules routes =
        before ++ newObjects fresh (routes.flatMap ownedRules) ++ after :=
  ⟨_, _, List.take_append_drop _ _, fun _ _ => rfl⟩

theorem newObjects_cons (fresh : ℕ) (rule : RouteRule) (later : List RouteRule) :
    newObjects fresh (rule :: later) = some ⟨fresh, rule⟩ :: newObjects (fresh + 1) later := by
  unfold newObjects
  rw [List.mapIdx_cons]
  simp only [Nat.add_zero, Nat.add_assoc, Nat.add_comm 1]

theorem filterMap_newObjects (fresh : ℕ) (written : List RouteRule) :
    (newObjects fresh written).filterMap (Option.map RuleObject.rule) = written := by
  induction written generalizing fresh with
  | nil => rfl
  | cons rule later ih =>
    rw [newObjects_cons]
    exact congrArg (rule :: ·) (ih (fresh + 1))

theorem mem_newObjects {fresh : ℕ} {written : List RouteRule} {p : RulePtr}
    (h : p ∈ newObjects fresh written) : ∃ r, p = some r ∧ r.rule ∈ written := by
  obtain ⟨i, hi, rfl⟩ := List.mem_mapIdx.mp h
  exact ⟨_, rfl, List.getElem_mem hi⟩

theorem ownedOf_newObjects {fresh : ℕ} {written : List RouteRule}
    (h : ∀ rule ∈ written, IsOwned stores rule = true) :
    ownedOf stores (newObjects fresh written) = written := by
  unfold ownedOf
  rw [filterMap_newObjects, List.filter_eq_self]
  exact h

/-! ## Foreign rules stay foreign -/

theorem ambiguous_of_mem_foreign {r : RuleObject} (h : some r ∈ foreign stores rules)
    (howned : IsOwned stores r.rule = true) : Ambiguous stores rules (routeId r.rule) := by
  obtain ⟨hmem, hnot⟩ := List.mem_filter.mp h
  by_contra hsettled
  rw [(isEditable_iff hmem).mpr ⟨r, rfl, howned, hsettled⟩] at hnot
  cases hnot

theorem mem_foreign_of_ambiguous {object : ℕ} {rule : RouteRule} (hmem : some ⟨object, rule⟩ ∈ rules)
    (h : Ambiguous stores rules (routeId rule)) : some ⟨object, rule⟩ ∈ foreign stores rules := by
  refine List.mem_filter.mpr ⟨hmem, Bool.not_eq_true' _ ▸ Bool.eq_false_iff.mpr fun hedit => ?_⟩
  obtain ⟨r, hr, -, hsettled⟩ := (isEditable_iff hmem).mp hedit
  obtain rfl := Option.some.inj hr
  exact hsettled h

/-- **The rules of an ambiguous id are all foreign**, so the id stays ambiguous among them. -/
theorem Ambiguous.of_foreign_subset {id : Text} (h : Ambiguous stores rules id)
    {result : List RulePtr} (hsub : ∀ p ∈ foreign stores rules, p ∈ result) :
    Ambiguous stores result id := by
  obtain ⟨a, ha, b, hb, hida, hidb, hne⟩ := h
  have hkeep : ∀ r ∈ ownedOf stores rules, routeId r = id → r ∈ ownedOf stores result := by
    intro r hr hid
    obtain ⟨object, hmem, howned⟩ := mem_ownedOf.mp hr
    refine mem_ownedOf.mpr ⟨object, hsub _ (mem_foreign_of_ambiguous hmem ?_), howned⟩
    rw [hid]
    exact ⟨a, ha, b, hb, hida, hidb, hne⟩
  exact ⟨a, hkeep a ha hida, b, hkeep b hb hidb, hida, hidb, hne⟩

/-! ## The written rules -/

theorem flatMap_readList (route : Route) (k : MatchKind)
    (hreads : ∀ kind, route.has kind = true → ReadsAs route kind) :
    (ownedRules route).flatMap (readList k) = route.list k := by
  have hpart : ∀ kind, (if route.has kind then [writtenRule route kind] else []).flatMap
      (readList k) = if k.names = kind then route.list k else [] := by
    intro kind
    split
    · rename_i hhas
      rw [List.flatMap_singleton, readList, hreads kind hhas, writtenRule_list]
      split <;> rfl
    · rename_i hhas
      split
      · rename_i hk
        exact (list_eq_nil_of_not_has (hk ▸ Bool.eq_false_iff.mpr hhas)).symm
      · rfl
  rw [ownedRules_eq, List.flatMap_assoc]
  simp only [hpart]
  cases k <;> simp [MatchKind.names]

theorem has_of_not_isEmpty {route : Route} (h : route.isEmpty = false) :
    ∃ kind, route.has kind = true := by
  by_contra hnone
  have hnot : ∀ kind, route.has kind = false := fun kind =>
    Bool.eq_false_iff.mpr fun hhas => hnone ⟨kind, hhas⟩
  have hlist : ∀ k : MatchKind, route.list k = [] := fun k => list_eq_nil_of_not_has (hnot k.names)
  have hprocesses := hlist .process_name
  have hpaths := hlist .process_path
  have hsets := hlist .rule_set
  have hdomains := hlist .domain_suffix
  have hcidrs := hlist .ip_cidr
  simp_all [Route.isEmpty, Route.list]

/-- An entry is what its own rules add up to. -/
theorem addAll_ownedRules {route : Route} (hid : ':' ∉ route.id) (hempty : route.isEmpty = false)
    (hreads : ∀ kind, route.has kind = true → ReadsAs route kind) :
    ∃ first later, ownedRules route = first :: later ∧
      (∀ rule ∈ ownedRules route, routeId rule = route.id) ∧
        route = routeGrouper.addAll (routeGrouper.start first) (ownedRules route) := by
  have hids : ∀ rule ∈ ownedRules route, routeId rule = route.id := by
    intro rule hrule
    obtain ⟨kind, -, rfl⟩ := mem_ownedRules.mp hrule
    exact routeId_writtenRule hid kind
  obtain ⟨kind, hhas⟩ := has_of_not_isEmpty hempty
  cases hrules : ownedRules route with
  | nil =>
    have hmem := mem_ownedRules.mpr ⟨kind, hhas, rfl⟩
    rw [hrules] at hmem
    cases hmem
  | cons first later =>
    refine ⟨first, later, rfl, hrules ▸ hids, ?_⟩
    have hfirst : first ∈ ownedRules route := hrules ▸ List.mem_cons_self
    rw [← hrules]
    apply Route.ext_list
    · have hkey : (routeGrouper.addAll (routeGrouper.start first) (ownedRules route)).id =
          routeId first := routeGrouper.entryKey_addAll _ _
      exact (hkey.trans (hids first hfirst)).symm
    · obtain ⟨kind', -, hwritten⟩ := mem_ownedRules.mp hfirst
      rw [addAll_outbound]
      exact (hwritten ▸ writtenRule_outboundID route kind').symm
    · intro k
      rw [addAll_list, start_list, List.nil_append, flatMap_readList route k hreads]

/-! ## The claim's lists -/

/-- What is asked of the routes that are written. -/
structure Writable (stores : Stores) (rules : List RulePtr) (routes : List Route) : Prop where
  distinct : (routes.map Route.id).Nodup
  filled : ∀ route ∈ routes, route.isEmpty = false
  settled : ∀ route ∈ routes, ¬ Ambiguous stores rules route.id
  plain : ∀ route ∈ routes, ':' ∉ route.id

/-- No entry has addresses under a name of processes. -/
def NamesReadBack (routes : List Route) : Prop :=
  ∀ route ∈ routes, route.hasAddresses = true → ¬ ReadsAsProcess route.id

theorem NamesReadBack.readsAs (h : NamesReadBack routes) {route : Route} (hroute : route ∈ routes)
    (hid : ':' ∉ route.id) {kind : NameKind} (hhas : route.has kind = true) :
    ReadsAs route kind := by
  apply Routes.readsAs
  rintro rfl
  exact (nameKind_addresses hid).mpr (h route hroute hhas)

section Result

variable {before after : List RulePtr} {fresh : ℕ}

/-- A rule of the result is foreign or one of a route's. -/
theorem mem_ownedOf_result (hfor : before ++ after = foreign stores rules) {rule : RouteRule}
    (h : rule ∈ ownedOf stores
      (before ++ newObjects fresh (routes.flatMap ownedRules) ++ after)) :
    Ambiguous stores rules (routeId rule) ∨ ∃ route ∈ routes, rule ∈ ownedRules route := by
  obtain ⟨object, hmem, howned⟩ := mem_ownedOf.mp h
  have hforeign : some ⟨object, rule⟩ ∈ foreign stores rules →
      Ambiguous stores rules (routeId rule) := fun hf => ambiguous_of_mem_foreign hf howned
  rw [← hfor, List.mem_append] at hforeign
  rcases List.mem_append.mp hmem with hmem | hmem
  · rcases List.mem_append.mp hmem with hmem | hmem
    · exact .inl (hforeign (.inl hmem))
    · obtain ⟨r, hr, hwritten⟩ := mem_newObjects hmem
      obtain rfl := Option.some.inj hr
      exact .inr (List.mem_flatMap.mp hwritten)
  · exact .inl (hforeign (.inr hmem))

/-- The id of a written route is settled in the result. -/
theorem settled_result (h : Writable stores rules routes)
    (hfor : before ++ after = foreign stores rules) {route : Route} (hroute : route ∈ routes) :
    ¬ Ambiguous stores (before ++ newObjects fresh (routes.flatMap ownedRules) ++ after)
      route.id := by
  have hout : ∀ rule ∈ ownedOf stores
      (before ++ newObjects fresh (routes.flatMap ownedRules) ++ after),
      routeId rule = route.id → rule.outboundID = route.outbound := by
    intro rule hrule hid
    rcases mem_ownedOf_result hfor hrule with hamb | ⟨route', hroute', hwritten⟩
    · exact absurd (hid ▸ hamb) (h.settled route hroute)
    · obtain ⟨kind, -, rfl⟩ := mem_ownedRules.mp hwritten
      rw [routeId_writtenRule (h.plain route' hroute')] at hid
      have hsame := List.inj_on_of_nodup_map h.distinct hroute' hroute hid
      rw [hsame, writtenRule_outboundID]
  rintro ⟨a, ha, b, hb, hida, hidb, hne⟩
  exact hne ((hout a ha hida).trans (hout b hb hidb).symm)

theorem isOwned_written (h : Writable stores rules routes) (hnames : NamesReadBack routes) :
    ∀ rule ∈ routes.flatMap ownedRules, IsOwned stores rule = true := by
  intro rule hrule
  obtain ⟨route, hroute, hwritten⟩ := List.mem_flatMap.mp hrule
  obtain ⟨kind, hhas, rfl⟩ := mem_ownedRules.mp hwritten
  exact isOwned_writtenRule stores (hnames.readsAs hroute (h.plain route hroute) hhas)

variable (h : Writable stores rules routes) (hnames : NamesReadBack routes)
  (hfor : before ++ after = foreign stores rules)
include h hnames hfor

/-- The screen owns a written rule. -/
theorem isEditable_written {p : RulePtr}
    (hp : p ∈ newObjects fresh (routes.flatMap ownedRules)) :
    isEditable stores (editableIds stores
      (before ++ newObjects fresh (routes.flatMap ownedRules) ++ after)) p = true := by
  have hmem := List.mem_append_left after (List.mem_append_right before hp)
  obtain ⟨r, rfl, hwritten⟩ := mem_newObjects hp
  refine (isEditable_iff hmem).mpr ⟨r, rfl, isOwned_written h hnames _ hwritten, ?_⟩
  obtain ⟨route, hroute, hrule⟩ := List.mem_flatMap.mp hwritten
  obtain ⟨kind, -, heq⟩ := mem_ownedRules.mp hrule
  rw [heq, routeId_writtenRule (h.plain route hroute)]
  exact settled_result h hfor hroute

omit h hnames in
/-- A foreign rule is foreign in the result. -/
theorem isEditable_foreign {p : RulePtr} (hp : p ∈ foreign stores rules) :
    isEditable stores (editableIds stores
      (before ++ newObjects fresh (routes.flatMap ownedRules) ++ after)) p = false := by
  have hsub : ∀ q ∈ foreign stores rules,
      q ∈ before ++ newObjects fresh (routes.flatMap ownedRules) ++ after := by
    intro q hq
    rw [← hfor] at hq
    rcases List.mem_append.mp hq with hq | hq
    · exact List.mem_append_left _ (List.mem_append_left _ hq)
    · exact List.mem_append_right _ hq
  refine Bool.eq_false_iff.mpr fun hedit => ?_
  obtain ⟨r, rfl, howned, hsettled⟩ := (isEditable_iff (hsub p hp)).mp hedit
  exact hsettled ((ambiguous_of_mem_foreign hp howned).of_foreign_subset hsub)

/-- What is foreign in the result was foreign before, as the same objects in the same order. -/
theorem foreign_result :
    foreign stores (before ++ newObjects fresh (routes.flatMap ownedRules) ++ after) =
      foreign stores rules := by
  have hkeep : ∀ part : List RulePtr, (∀ p ∈ part, p ∈ foreign stores rules) →
      part.filter (fun p => !isEditable stores (editableIds stores
        (before ++ newObjects fresh (routes.flatMap ownedRules) ++ after)) p) = part := by
    intro part hpart
    rw [List.filter_eq_self]
    intro p hp
    rw [isEditable_foreign hfor (hpart p hp)]
    rfl
  have hdrop : (newObjects fresh (routes.flatMap ownedRules)).filter
      (fun p => !isEditable stores (editableIds stores
        (before ++ newObjects fresh (routes.flatMap ownedRules) ++ after)) p) = [] := by
    rw [List.filter_eq_nil_iff]
    intro p hp
    rw [isEditable_written h hnames hfor hp]
    exact Bool.false_ne_true
  have hbefore := hkeep before fun p hp => hfor ▸ List.mem_append_left after hp
  have hafter := hkeep after fun p hp => hfor ▸ List.mem_append_right before hp
  unfold foreign at hfor ⊢
  rw [List.filter_append, List.filter_append, hbefore, hdrop, hafter, List.append_nil]
  exact hfor

theorem editableRules_result :
    editableRules stores (before ++ newObjects fresh (routes.flatMap ownedRules) ++ after) =
      routes.flatMap ownedRules := by
  have hdrop : ∀ part : List RulePtr, (∀ p ∈ part, p ∈ foreign stores rules) →
      part.filter (isEditable stores (editableIds stores
        (before ++ newObjects fresh (routes.flatMap ownedRules) ++ after))) = [] := by
    intro part hpart
    rw [List.filter_eq_nil_iff]
    intro p hp
    rw [isEditable_foreign hfor (hpart p hp)]
    exact Bool.false_ne_true
  have hkeep : (newObjects fresh (routes.flatMap ownedRules)).filter
      (isEditable stores (editableIds stores
        (before ++ newObjects fresh (routes.flatMap ownedRules) ++ after))) =
      newObjects fresh (routes.flatMap ownedRules) :=
    List.filter_eq_self.mpr fun p hp => isEditable_written h hnames hfor hp
  have hbefore := hdrop before fun p hp => hfor ▸ List.mem_append_left after hp
  have hafter := hdrop after fun p hp => hfor ▸ List.mem_append_right before hp
  unfold editableRules
  rw [List.filter_append, List.filter_append, hbefore, hkeep, hafter, List.append_nil,
    List.nil_append]
  exact filterMap_newObjects fresh _

/-- **The screen reads back what was written.** -/
theorem read_result :
    Read stores (before ++ newObjects fresh (routes.flatMap ownedRules) ++ after) = routes := by
  unfold Read
  rw [editableRules_result h hnames hfor]
  have hgroup : routeGrouper.group (routes.flatMap ownedRules) = routes.map id :=
    routeGrouper.group_flatMap h.distinct fun route hroute => addAll_ownedRules (h.plain route hroute)
      (h.filled route hroute) fun kind hhas =>
        hnames.readsAs hroute (h.plain route hroute) hhas
  rw [List.map_id] at hgroup
  exact hgroup

/-- Another write puts its rules where the first one did. -/
theorem write_result (fresh' : ℕ) :
    Write stores fresh' (before ++ newObjects fresh (routes.flatMap ownedRules) ++ after) routes =
      before ++ newObjects fresh' (routes.flatMap ownedRules) ++ after := by
  have hsame : foreign stores (before ++ newObjects fresh (routes.flatMap ownedRules) ++ after) =
      foreign stores rules := foreign_result h hnames hfor
  have hkept := hsame.trans hfor.symm
  have hforeign : ∀ p ∈ before ++ after, isEditable stores (editableIds stores
      (before ++ newObjects fresh (routes.flatMap ownedRules) ++ after)) p = false :=
    fun p hp => isEditable_foreign hfor (hfor ▸ hp)
  have hnew : ∀ p ∈ newObjects fresh (routes.flatMap ownedRules), isEditable stores (editableIds
      stores (before ++ newObjects fresh (routes.flatMap ownedRules) ++ after)) p = true :=
    fun p hp => isEditable_written h hnames hfor hp
  unfold foreign at hkept
  unfold Write
  dsimp only
  rw [hkept]
  generalize isEditable stores (editableIds stores
    (before ++ newObjects fresh (routes.flatMap ownedRules) ++ after)) = removed at hforeign hnew ⊢
  cases hwritten : routes.flatMap ownedRules with
  | nil =>
    have hnone : ((before ++ newObjects fresh [] ++ after).any removed) = false := by
      rw [show newObjects fresh [] = [] from rfl, List.append_nil, List.any_eq_false]
      intro p hp
      rw [hforeign p hp]
      exact Bool.false_ne_true
    have hnil : newObjects fresh' [] = [] := rfl
    rw [hnone, if_neg Bool.false_ne_true, hnil, List.append_nil, List.append_nil]
    exact List.take_append_drop 0 _
  | cons rule later =>
    rw [hwritten, newObjects_cons] at hnew
    have hfirst := hnew _ List.mem_cons_self
    have hany : (before ++ newObjects fresh (rule :: later) ++ after).any removed = true := by
      rw [List.any_eq_true, newObjects_cons]
      exact ⟨_, by simp, hfirst⟩
    have htake : (before ++ newObjects fresh (rule :: later) ++ after).takeWhile (!removed ·) =
        before := by
      rw [newObjects_cons, List.append_assoc, List.takeWhile_append_of_pos, List.cons_append,
        List.takeWhile_cons_of_neg (by simp [hfirst]), List.append_nil]
      intro p hp
      rw [hforeign p (List.mem_append_left _ hp)]
      rfl
    rw [hany, if_pos rfl, htake, List.take_left, List.drop_left]

end Result

/-! ## What is in force -/

/-- An enabled owned rule has the matcher. -/
def InForce (stores : Stores) (rules : List RulePtr) (m : Matcher) : Prop :=
  ∃ rule ∈ ownedOf stores rules, rule.disabled = false ∧ MatcherOf rule m

instance (stores : Stores) (rules : List RulePtr) (m : Matcher) :
    Decidable (InForce stores rules m) :=
  inferInstanceAs (Decidable (∃ rule ∈ ownedOf stores rules, _))

/-- A matcher of a disabled rule of the screen is in force by another rule. -/
def DisabledHarmless (stores : Stores) (rules : List RulePtr) : Prop :=
  ∀ rule ∈ editableRules stores rules, rule.disabled = true →
    ∀ m, MatcherOf rule m → InForce stores rules m

theorem namesReadBack_Read (stores : Stores) (rules : List RulePtr) :
    NamesReadBack (Read stores rules) := fun _ hroute hhas hid =>
  nameKind_readsAsProcess hid (nameKind_of_mem_Read hroute hhas)

theorem isOwned_of_mem_Read {rule : RouteRule}
    (h : rule ∈ (Read stores rules).flatMap ownedRules) : IsOwned stores rule = true := by
  obtain ⟨route, hroute, hwritten⟩ := List.mem_flatMap.mp h
  obtain ⟨kind, hhas, rfl⟩ := mem_ownedRules.mp hwritten
  apply isOwned_writtenRule
  apply readsAs
  rintro rfl
  exact nameKind_of_mem_Read hroute hhas

theorem ownedOf_write (fresh : ℕ) :
    ∀ rule, rule ∈ ownedOf stores (Write stores fresh rules (Read stores rules)) ↔
      rule ∈ ownedOf stores (foreign stores rules) ∨
        rule ∈ (Read stores rules).flatMap ownedRules := by
  intro rule
  obtain ⟨before, after, hfor, hwrite⟩ := exists_write stores rules
  rw [hwrite, ownedOf_append, ownedOf_append, ownedOf_newObjects fun _ => isOwned_of_mem_Read,
    ← hfor, ownedOf_append]
  simp only [List.mem_append]
  exact or_right_comm

/-- An owned rule is foreign or on the screen. -/
theorem mem_ownedOf_cases {rule : RouteRule} :
    rule ∈ ownedOf stores rules ↔
      rule ∈ ownedOf stores (foreign stores rules) ∨ rule ∈ editableRules stores rules := by
  constructor
  · intro hrule
    by_cases hamb : Ambiguous stores rules (routeId rule)
    · obtain ⟨object, hmem, howned⟩ := mem_ownedOf.mp hrule
      exact .inl (mem_ownedOf.mpr ⟨object, mem_foreign_of_ambiguous hmem hamb, howned⟩)
    · exact .inr (mem_editableRules.mpr ⟨hrule, hamb⟩)
  · rintro (hforeign | hedit)
    · obtain ⟨object, hmem, howned⟩ := mem_ownedOf.mp hforeign
      exact mem_ownedOf.mpr ⟨object, (List.mem_filter.mp hmem).1, howned⟩
    · exact (mem_editableRules.mp hedit).1

/-- **After a rewrite the matchers of the screen's rules are in force**, enabled or not. -/
theorem inForce_write {fresh : ℕ} {m : Matcher} :
    InForce stores (Write stores fresh rules (Read stores rules)) m ↔
      InForce stores rules m ∨ ∃ rule ∈ editableRules stores rules, MatcherOf rule m := by
  constructor
  · rintro ⟨rule, hrule, henabled, hm⟩
    rcases (ownedOf_write fresh rule).mp hrule with hforeign | hwritten
    · exact .inl ⟨rule, mem_ownedOf_cases.mpr (.inl hforeign), henabled, hm⟩
    · obtain ⟨route, hroute, hmem⟩ := List.mem_flatMap.mp hwritten
      exact .inr (matcherOf_read.mp ⟨route, hroute, rule, hmem, hm⟩)
  · have hscreen : ∀ rule ∈ editableRules stores rules, MatcherOf rule m →
        InForce stores (Write stores fresh rules (Read stores rules)) m := by
      intro rule hrule hm
      obtain ⟨route, hroute, written, hmem, hwm⟩ := matcherOf_read.mpr ⟨rule, hrule, hm⟩
      obtain ⟨kind, -, heq⟩ := mem_ownedRules.mp hmem
      refine ⟨written, (ownedOf_write fresh written).mpr (.inr ?_), ?_, hwm⟩
      · exact List.mem_flatMap.mpr ⟨route, hroute, hmem⟩
      · rw [heq, writtenRule_disabled]
    rintro (⟨rule, hrule, henabled, hm⟩ | ⟨rule, hrule, hm⟩)
    · rcases mem_ownedOf_cases.mp hrule with hforeign | hedit
      · exact ⟨rule, (ownedOf_write fresh rule).mpr (.inl hforeign), henabled, hm⟩
      · exact hscreen rule hedit hm
    · exact hscreen rule hrule hm

/-! ## The guarantee -/

/-- What a write is to keep. -/
structure WriteKeeps (stores : Stores) (rules : List RulePtr) (routes : List Route) : Prop where
  /-- The foreign rules stay, as the same objects in the same order. -/
  foreignStay : ∀ fresh, (foreign stores rules).Sublist (Write stores fresh rules routes)
  /-- No other rule is foreign afterwards. -/
  foreignSame : ∀ fresh,
    foreign stores (Write stores fresh rules routes) = foreign stores rules
  readBack : ∀ fresh, Read stores (Write stores fresh rules routes) = routes
  idempotent : ∀ fresh fresh',
    Write stores fresh' (Write stores fresh rules routes) routes = Write stores fresh' rules routes
  /-- A disabled rule whose matchers are all in force after a rewrite had them in force before. -/
  disabledStay : ∀ fresh, ∀ rule ∈ ownedOf stores rules, rule.disabled = true →
    (∀ m, MatcherOf rule m → InForce stores (Write stores fresh rules (Read stores rules)) m) →
      ∀ m, MatcherOf rule m → InForce stores rules m
  sameForce : ∀ fresh m,
    InForce stores (Write stores fresh rules (Read stores rules)) m ↔ InForce stores rules m

/-- **A write keeps what it should** exactly when no entry has addresses under the id `process` or
`process-path`, and no disabled rule of the screen has a matcher that is not in force. -/
theorem write_keeps_iff (stores : Stores) (rules : List RulePtr) (routes : List Route)
    (h : Writable stores rules routes) :
    WriteKeeps stores rules routes ↔ NamesReadBack routes ∧ DisabledHarmless stores rules := by
  constructor
  · intro hkeeps
    refine ⟨?_, fun rule hrule _ m hm => ?_⟩
    · have hread := namesReadBack_Read stores (Write stores 0 rules routes)
      rw [hkeeps.readBack 0] at hread
      exact hread
    · exact (hkeeps.sameForce 0 m).mp (inForce_write.mpr (.inr ⟨rule, hrule, hm⟩))
  · rintro ⟨hnames, hdisabled⟩
    have hforce : ∀ fresh m, InForce stores (Write stores fresh rules (Read stores rules)) m ↔
        InForce stores rules m := by
      intro fresh m
      rw [inForce_write, or_iff_left_iff_imp]
      rintro ⟨rule, hrule, hm⟩
      cases hdis : rule.disabled with
      | false => exact ⟨rule, (mem_editableRules.mp hrule).1, hdis, hm⟩
      | true => exact hdisabled rule hrule hdis m hm
    obtain ⟨before, after, hfor, hwrite⟩ := exists_write stores rules
    refine ⟨fun fresh => ?_, fun fresh => ?_, fun fresh => ?_, fun fresh fresh' => ?_,
      fun fresh rule _ _ hafter m hm => (hforce fresh m).mp (hafter m hm), hforce⟩
    · rw [hwrite, ← hfor]
      exact (List.sublist_append_left before _).append (List.Sublist.refl after)
    · rw [hwrite]
      exact foreign_result h hnames hfor
    · rw [hwrite]
      exact read_result h hnames hfor
    · rw [hwrite, hwrite]
      exact write_result h hnames hfor fresh'

/-- No profile has a name and no rule set another one. -/
def plainStores : Stores where
  displayName := fun _ => none
  get_rule_set_name := id

/-- The rule of an app for one address. -/
def appRule (id value : Text) : RouteRule :=
  { makeRule (RulePrefix ++ id) directID with domain_suffix := [value] }

/-- A list with a foreign rule and an app's. -/
def mixedRules : List RulePtr :=
  [some ⟨0, { makeRule ['a', 'd', 's'] directID with domain_suffix := [['x']] }⟩,
    some ⟨1, appRule ['t'] ['y']⟩, none]

def mixedRoutes : List Route :=
  [{ id := ['t'], processes := [['p']], domains := [['z']], outbound := directID },
    { id := processId, processPaths := [['q']], outbound := 7 }]

theorem write_keeps_iff_mixed : WriteKeeps plainStores mixedRules mixedRoutes := by
  have hwritable : Writable plainStores mixedRules mixedRoutes :=
    ⟨by decide, by decide, by decide +kernel, by decide⟩
  refine (write_keeps_iff plainStores mixedRules mixedRoutes hwritable).mpr ⟨?_, ?_⟩
  · unfold NamesReadBack
    decide
  · have henabled : ∀ rule ∈ editableRules plainStores mixedRules, rule.disabled = false := by
      decide +kernel
    intro rule hrule hdisabled
    rw [henabled rule hrule] at hdisabled
    cases hdisabled

/-- The rule of an app that the user has switched off. -/
def disabledRules : List RulePtr := [some ⟨0, { appRule ['t'] ['y'] with disabled := true }⟩]

def processRoute : Route := { id := processId, domains := [['z']], outbound := directID }

/-- **Writing back what was read enables a disabled rule**, and an entry of the id `process` is
not read back. -/
theorem write_enablesDisabledRule :
    (Write plainStores 1 disabledRules (Read plainStores disabledRules) =
        [some ⟨1, appRule ['t'] ['y']⟩] ∧
      Read plainStores (Write plainStores 0 [] [processRoute]) = []) ∧
    ¬ ∀ stores rules routes, Writable stores rules routes → WriteKeeps stores rules routes := by
  constructor
  · decide +kernel
  · intro h
    have hwritable : Writable plainStores disabledRules [] :=
      ⟨List.nodup_nil, by simp, by simp, by simp⟩
    have hforce := (h plainStores disabledRules [] hwritable).sameForce 1
      ⟨directID, .domain_suffix, ['y']⟩
    revert hforce
    decide +kernel

end Throned.Routes
