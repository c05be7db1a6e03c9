import Throned.Analysis.RouteNames

/-!
# The rules that entries own

A rule is owned when its view has no other keys than those its name allows.  So each kind of
matcher is found in rules of one kind of name, and the rules written for an entry are owned
unless the name of its addresses reads as one of processes.
-/

set_option autoImplicit false

namespace Throned.Routes

open Throned.Library
open Throned.Configs (proxyID directID actionRoute)

/-- The lists of a rule that entries use. -/
inductive MatchKind where
  | process_name
  | process_path
  | rule_set
  | domain_suffix
  | ip_cidr
  deriving DecidableEq, Repr

/-- The rules that hold the list. -/
def MatchKind.names : MatchKind → NameKind
  | .process_name => .processes
  | .process_path => .processPaths
  | .rule_set | .domain_suffix | .ip_cidr => .addresses

def MatchKind.key : MatchKind → String
  | .process_name => "process_name"
  | .process_path => "process_path"
  | .rule_set => "rule_set"
  | .domain_suffix => "domain_suffix"
  | .ip_cidr => "ip_cidr"

def RouteRule.list (rule : RouteRule) : MatchKind → List Text
  | .process_name => rule.process_name
  | .process_path => rule.process_path
  | .rule_set => rule.rule_set
  | .domain_suffix => rule.domain_suffix
  | .ip_cidr => rule.ip_cidr

def Route.list (route : Route) : MatchKind → List Text
  | .process_name => route.processes
  | .process_path => route.processPaths
  | .rule_set => route.ruleSets
  | .domain_suffix => route.domains
  | .ip_cidr => route.cidrs

/-! ## Items -/

theorem items_append (a b : List Text) : items (a ++ b) = items a ++ items b := by
  unfold items
  rw [List.map_append, List.filter_append]

theorem items_flatMap {α : Type*} (xs : List α) (f : α → List Text) :
    items (xs.flatMap f) = xs.flatMap fun x => items (f x) := by
  induction xs with
  | nil => rfl
  | cons x xs ih => rw [List.flatMap_cons, items_append, ih, List.flatMap_cons]

theorem isValidStrArray_iff {arr : List Text} : isValidStrArray arr = true ↔ items arr ≠ [] := by
  unfold isValidStrArray items
  rw [List.any_eq_true, Ne, List.filter_eq_nil_iff]
  simp

@[simp] theorem isValidStrArray_nil : isValidStrArray [] = false := rfl

/-! ## Ownership -/

/-- The view of an owned rule's copy. -/
def ownedView (stores : Stores) (rule : RouteRule) : JsonObject :=
  conditions stores true rule ++ [("action", .str actionRoute)] ++ routeMembers rule ++
    [("outbound", .str "direct".toList)]

theorem get_rule_json_direct (stores : Stores) {rule : RouteRule} (htype : rule.type = .custom)
    (haction : rule.action = actionRoute) (hout : rule.outboundID = directID) :
    (get_rule_json stores true [] rule).1 = ownedView stores rule := by
  have heffective : effective_action rule = rule.action := by
    unfold effective_action
    rw [if_pos haction, hout, if_neg (by decide), if_neg (by decide)]
  have hkeep : { rule with action := effective_action rule } = rule := by rw [heffective]
  have hview : outboundMember stores true [] rule.outboundID =
      some [("outbound", .str "direct".toList)] := by
    rw [hout]
    rfl
  unfold get_rule_json
  rw [if_neg (by simp [htype])]
  dsimp only
  rw [hkeep]
  simp only [renderRest, haction, true_or, if_true, hview]
  rw [if_neg (by decide), if_neg (by decide), if_neg (by decide)]
  simp only [ownedView, List.append_nil]

theorem isOwned_iff (stores : Stores) (rule : RouteRule) :
    IsOwned stores rule = true ↔
      rule.type = .custom ∧ rule.action = actionRoute ∧ RulePrefix <+: rule.name ∧
        ∀ key ∈ (ownedView stores { rule with type := .custom, outboundID := directID }).keys,
          key ∈ allowedKeys rule.name := by
  unfold IsOwned
  by_cases htype : rule.type = .custom
  · by_cases haction : rule.action = actionRoute
    · by_cases hstarts : RulePrefix <+: rule.name
      · have hcopy : (get_rule_json stores true []
            { rule with type := .custom, outboundID := directID }).1 =
            ownedView stores { rule with type := .custom, outboundID := directID } :=
          get_rule_json_direct stores rfl haction rfl
        rw [if_neg (by simp [htype, haction, List.isPrefixOf_iff_prefix.mpr hstarts])]
        dsimp only
        rw [hcopy]
        simp only [List.all_eq_true, decide_eq_true_eq]
        exact ⟨fun h => ⟨htype, haction, hstarts, h⟩, fun h => h.2.2.2⟩
      · have hnot : RulePrefix.isPrefixOf rule.name = false :=
          Bool.eq_false_iff.mpr fun h => hstarts (List.isPrefixOf_iff_prefix.mp h)
        rw [if_pos (by simp [hnot])]
        exact iff_of_false Bool.false_ne_true fun h => hstarts h.2.2.1
    · rw [if_pos (by simp [haction])]
      exact iff_of_false Bool.false_ne_true fun h => haction h.2.1
  · rw [if_pos (by simp [htype])]
    exact iff_of_false Bool.false_ne_true fun h => htype h.1

theorem mem_allowedKeys {name : Text} {key : String} :
    key ∈ allowedKeys name ↔
      key = "action" ∨ key = "outbound" ∨
        match nameKind name with
        | .processes => key = "process_name"
        | .processPaths => key = "process_path"
        | .addresses => key = "domain_suffix" ∨ key = "rule_set" ∨ key = "ip_cidr" := by
  unfold allowedKeys nameKind
  split
  · simp
  · split <;> simp

theorem key_mem_allowedKeys {name : Text} {kind : MatchKind} :
    kind.key ∈ allowedKeys name ↔ kind.names = nameKind name := by
  rw [mem_allowedKeys]
  generalize nameKind name = k
  cases kind <;> cases k <;> simp [MatchKind.key, MatchKind.names]

theorem key_mem_ownedView {stores : Stores} {rule : RouteRule} {kind : MatchKind}
    (h : items (rule.list kind) ≠ []) : kind.key ∈ (ownedView stores rule).keys := by
  have hvalid := isValidStrArray_iff.mpr h
  unfold ownedView conditions listMember
  cases kind <;> simp_all [MatchKind.key, RouteRule.list]

/-- **A matcher of an owned rule is of its name's kind.** -/
theorem IsOwned.items_eq_nil {stores : Stores} {rule : RouteRule} (h : IsOwned stores rule = true)
    {kind : MatchKind} (hkind : kind.names ≠ nameKind rule.name) : items (rule.list kind) = [] := by
  by_contra hitems
  have hkeys := ((isOwned_iff stores rule).mp h).2.2.2
  refine hkind (key_mem_allowedKeys.mp (hkeys kind.key (key_mem_ownedView ?_)))
  cases kind <;> exact hitems

/-! ## The rules of an entry -/

/-- The entry has something for the rule of the name. -/
def Route.has (route : Route) : NameKind → Bool
  | .addresses => route.hasAddresses
  | .processes => route.processes ≠ []
  | .processPaths => route.processPaths ≠ []

def writtenRule (route : Route) : NameKind → RouteRule
  | .addresses =>
    { makeRule (RulePrefix ++ route.id) route.outbound with
      rule_set := route.ruleSets, domain_suffix := route.domains, ip_cidr := route.cidrs }
  | .processes =>
    { makeRule (RulePrefix ++ route.id ++ ProcessSuffix) route.outbound with
      process_name := route.processes }
  | .processPaths =>
    { makeRule (RulePrefix ++ route.id ++ ProcessPathSuffix) route.outbound with
      process_path := route.processPaths }

theorem ownedRules_eq (route : Route) :
    ownedRules route =
      [NameKind.addresses, .processes, .processPaths].flatMap fun kind =>
        if route.has kind then [writtenRule route kind] else [] := by
  simp only [List.flatMap_cons, List.flatMap_nil, List.append_nil, ownedRules, Route.has,
    decide_eq_true_eq, List.append_assoc, writtenRule]

theorem mem_ownedRules {route : Route} {rule : RouteRule} :
    rule ∈ ownedRules route ↔ ∃ kind, route.has kind = true ∧ rule = writtenRule route kind := by
  rw [ownedRules_eq, List.mem_flatMap]
  constructor
  · rintro ⟨kind, -, hrule⟩
    split at hrule
    · rename_i hhas
      exact ⟨kind, hhas, List.mem_singleton.mp hrule⟩
    · cases hrule
  · rintro ⟨kind, hhas, rfl⟩
    refine ⟨kind, by cases kind <;> simp, ?_⟩
    rw [if_pos hhas]
    exact List.mem_singleton_self _

@[simp] theorem writtenRule_outboundID (route : Route) (kind : NameKind) :
    (writtenRule route kind).outboundID = route.outbound := by
  cases kind <;> rfl

@[simp] theorem writtenRule_disabled (route : Route) (kind : NameKind) :
    (writtenRule route kind).disabled = false := by
  cases kind <;> rfl

theorem writtenRule_name (route : Route) (kind : NameKind) :
    (writtenRule route kind).name = RulePrefix ++ route.id ++ kind.ending := by
  cases kind
  · exact (List.append_nil _).symm
  · rfl
  · rfl

theorem writtenRule_list (route : Route) (kind : NameKind) (k : MatchKind) :
    (writtenRule route kind).list k = if k.names = kind then route.list k else [] := by
  cases kind <;> cases k <;> rfl

theorem list_eq_nil_of_not_has {route : Route} {k : MatchKind} (h : route.has k.names = false) :
    route.list k = [] := by
  cases k <;> simp_all [Route.has, Route.hasAddresses, MatchKind.names, Route.list]

/-- A name reads as what it was written for. -/
def ReadsAs (route : Route) (kind : NameKind) : Prop :=
  nameKind (writtenRule route kind).name = kind

theorem readsAs {route : Route} {kind : NameKind}
    (h : kind = .addresses → nameKind (RulePrefix ++ route.id) = .addresses) :
    ReadsAs route kind := by
  unfold ReadsAs
  rw [writtenRule_name]
  cases kind with
  | addresses =>
    rw [NameKind.ending, List.append_nil]
    exact h rfl
  | processes => exact nameKind_processes _
  | processPaths => exact nameKind_processPaths _

theorem keys_textMember {key : String} {value : Text} (h : value = []) :
    (textMember key value).keys = [] := by
  rw [h]
  rfl

theorem keys_listMember {key : String} {value : List Text} (h : value = []) :
    (listMember key value).keys = [] := by
  rw [h]
  rfl

theorem keys_numbersMember {key : String} {value : List Text} (h : value = []) :
    (numbersMember key value).keys = [] := by
  rw [h]
  rfl

theorem keys_flagMember_false (key : String) : (flagMember key false).keys = [] := rfl

theorem mem_keys_listMember {key k : String} {value : List Text} :
    k ∈ (listMember key value).keys ↔ isValidStrArray value = true ∧ k = key :=
  JsonObject.mem_keys_member

theorem trimSpace_nil : trimSpace [] = [] := rfl

theorem toInt_nil : toInt [] = 0 := rfl

theorem key_mem_view_written {stores : Stores} {route : Route} {kind : NameKind} {key : String}
    (h : key ∈ (ownedView stores
      { writtenRule route kind with type := .custom, outboundID := directID }).keys) :
    key = "action" ∨ key = "outbound" ∨ ∃ k : MatchKind, key = k.key ∧ k.names = kind := by
  unfold ownedView conditions routeMembers at h
  cases kind
  all_goals
    simp only [writtenRule, makeRule, JsonObject.keys_append, keys_textMember, keys_listMember,
      keys_numbersMember, keys_flagMember_false, trimSpace_nil, toInt_nil] at h
    simp [mem_keys_listMember] at h
  · rcases h with ⟨-, rfl⟩ | ⟨-, rfl⟩ | ⟨-, rfl⟩ | rfl | rfl
    · exact .inr (.inr ⟨.domain_suffix, rfl, rfl⟩)
    · exact .inr (.inr ⟨.ip_cidr, rfl, rfl⟩)
    · exact .inr (.inr ⟨.rule_set, rfl, rfl⟩)
    · exact .inl rfl
    · exact .inr (.inl rfl)
  · rcases h with ⟨-, rfl⟩ | rfl | rfl
    · exact .inr (.inr ⟨.process_name, rfl, rfl⟩)
    · exact .inl rfl
    · exact .inr (.inl rfl)
  · rcases h with ⟨-, rfl⟩ | rfl | rfl
    · exact .inr (.inr ⟨.process_path, rfl, rfl⟩)
    · exact .inl rfl
    · exact .inr (.inl rfl)

/-- **A written rule is owned** where its name reads as what it was written for. -/
theorem isOwned_writtenRule (stores : Stores) {route : Route} {kind : NameKind}
    (h : ReadsAs route kind) : IsOwned stores (writtenRule route kind) = true := by
  refine (isOwned_iff stores _).mpr ⟨by cases kind <;> rfl, by cases kind <;> rfl, ?_, ?_⟩
  · rw [writtenRule_name, List.append_assoc]
    exact List.prefix_append RulePrefix _
  · intro key hkey
    rcases key_mem_view_written hkey with rfl | rfl | ⟨k, rfl, hk⟩
    · exact mem_allowedKeys.mpr (.inl rfl)
    · exact mem_allowedKeys.mpr (.inr (.inl rfl))
    · exact key_mem_allowedKeys.mpr (hk.trans h.symm)

theorem routeId_writtenRule {route : Route} (hid : ':' ∉ route.id) (kind : NameKind) :
    routeId (writtenRule route kind) = route.id :=
  routeId_ending hid kind (writtenRule_name route kind)

end Throned.Routes
