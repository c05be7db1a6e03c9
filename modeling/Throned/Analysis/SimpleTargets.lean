import Throned.Analysis.SimpleLines
import Throned.Library.Runs

/-!
# One line of a target

A target's lines lie in rules that its type and outbound tell from those of other targets.  Adding
or removing a line touches such rules alone, and what is left of a rule has a condition.
-/

set_option autoImplicit false

namespace Throned.Routes

open Throned.Library
open Throned.Configs (actionRoute)

variable (checks : LineChecks)

/-! ## Rules of a target -/

/-- The rules that lines of the target can lie in. -/
def belongs (target : SimpleTarget) (rule : RouteRule) : Bool :=
  if target.isServer then
    decide (rule.outboundID = target.serverID) &&
      (decide (rule.type ∈ simple_rule_types .viaProfile) || decide (rule.type = .custom))
  else decide (rule.type ∈ simple_rule_types target.action)

/-- Two targets whose lines lie in different rules: two servers, two actions, or a server and an
action other than that of all servers. -/
def Apart (a b : SimpleTarget) : Prop :=
  if a.isServer then
    if b.isServer then a.serverID ≠ b.serverID else b.action ≠ .viaProfile
  else if b.isServer then a.action ≠ .viaProfile else a.action ≠ b.action

instance (a b : SimpleTarget) : Decidable (Apart a b) := by
  unfold Apart
  infer_instance

theorem action_of_mem_types {type : RuleType} {a b : SimpleAction}
    (ha : type ∈ simple_rule_types a) (hb : type ∈ simple_rule_types b) : a = b := by
  revert ha hb
  cases a <;> cases b <;> first | exact fun _ _ => rfl | (cases type <;> decide)

theorem custom_notMem_types (action : SimpleAction) : RuleType.custom ∉ simple_rule_types action := by
  cases action <;> decide

theorem belongs_congr {target : SimpleTarget} {a b : RouteRule} (htype : a.type = b.type)
    (hout : a.outboundID = b.outboundID) : belongs target a = belongs target b := by
  unfold belongs
  rw [htype, hout]

theorem Apart.not_belongs {a b : SimpleTarget} (h : Apart a b) {rule : RouteRule}
    (ha : belongs a rule = true) : belongs b rule = false := by
  rw [Bool.eq_false_iff]
  intro hb
  unfold Apart at h
  unfold belongs at ha hb
  split at h
  · rename_i hserver
    rw [if_pos hserver] at ha
    simp only [Bool.and_eq_true, Bool.or_eq_true, decide_eq_true_eq] at ha
    split at h
    · rename_i hserver'
      rw [if_pos hserver'] at hb
      simp only [Bool.and_eq_true, decide_eq_true_eq] at hb
      exact h (ha.1.symm.trans hb.1)
    · rename_i haction
      rw [if_neg haction, decide_eq_true_eq] at hb
      rcases ha.2 with hvia | hcustom
      · exact h (action_of_mem_types hb hvia)
      · exact custom_notMem_types _ (hcustom ▸ hb)
  · rename_i haction
    rw [if_neg haction, decide_eq_true_eq] at ha
    split at h
    · rename_i hserver'
      rw [if_pos hserver'] at hb
      simp only [Bool.and_eq_true, Bool.or_eq_true, decide_eq_true_eq] at hb
      rcases hb.2 with hvia | hcustom
      · exact h (action_of_mem_types ha hvia)
      · exact custom_notMem_types _ (hcustom ▸ ha)
    · rename_i haction'
      rw [if_neg haction', decide_eq_true_eq] at hb
      exact h (action_of_mem_types ha hb)

theorem get_rule_type_mem {content : Text} {action : SimpleAction}
    (h : get_rule_type content action ≠ .custom) :
    get_rule_type content action ∈ simple_rule_types action := by
  unfold get_rule_type at h ⊢
  split
  · simp [simple_rule_types]
  · split
    · simp [simple_rule_types]
    · split
      · simp [simple_rule_types]
      · rename_i haddress hname hpath
        rw [if_neg haddress, if_neg hname, if_neg hpath] at h
        exact absurd rfl h

theorem custom_of_is_server_rule_for {darwin : Bool} {rule : RouteRule} {content : Text}
    (h : is_server_rule_for darwin rule content = true) : rule.type = .custom := by
  by_contra hne
  unfold is_server_rule_for at h
  rw [if_pos (.inl hne)] at h
  cases h

/-- A rule for lines of a target belongs to it. -/
theorem belongs_of_isRuleFor {darwin : Bool} {content : Text} {target : SimpleTarget}
    {rule : RouteRule} (h : isRuleFor darwin content target rule = true) :
    belongs target rule = true := by
  unfold isRuleFor at h
  unfold belongs
  cases hserver : target.isServer with
  | true =>
    simp only [hserver, if_true] at h ⊢
    by_cases htype : get_rule_type content .viaProfile = .custom
    · rw [if_pos htype] at h
      cases h
    · rw [if_neg htype] at h
      simp only [Bool.and_eq_true, Bool.or_eq_true, decide_eq_true_eq] at h ⊢
      refine ⟨h.1, h.2.imp (fun heq => ?_) custom_of_is_server_rule_for⟩
      rw [heq]
      exact get_rule_type_mem htype
  | false =>
    simp only [hserver, Bool.false_eq_true, if_false] at h ⊢
    by_cases htype : get_rule_type content target.action = .custom
    · rw [if_pos htype] at h
      cases h
    · rw [if_neg htype, decide_eq_true_eq] at h
      rw [decide_eq_true_eq, h]
      exact get_rule_type_mem htype

/-- Only the rules of a target count for its lines. -/
theorem HasSimpleRule_filter {darwin : Bool} {rawRule : Text} {a b : SimpleTarget}
    (h : Apart a b) (rules : List RouteRule) :
    HasSimpleRule checks darwin rawRule b (rules.filter fun rule => !belongs a rule) =
      HasSimpleRule checks darwin rawRule b rules := by
  unfold HasSimpleRule
  dsimp only
  rw [List.any_filter]
  refine List.any_congr rfl fun rule => ?_
  by_cases ha : belongs a rule = true
  · have hnot : isRuleFor darwin (trimSpace rawRule) b rule = false := by
      rw [Bool.eq_false_iff]
      intro hrule
      have hb := belongs_of_isRuleFor hrule
      rw [h.not_belongs ha] at hb
      cases hb
    rw [hnot, Bool.false_and, Bool.and_false]
  · rw [Bool.eq_false_iff.mpr ha, Bool.not_false, Bool.true_and]

/-! ## Adding a line -/

/-- The rules of an action with one line more. -/
def withLine (action : SimpleAction) (outbound : Option ℤ) (entry : LineKind × Text)
    (rules : List RouteRule) : List RouteRule :=
  let type := kindType action entry.1
  if rules.any (isBucket type outbound) then
    changeFirst (isBucket type outbound) (fun rule => rule.addValue entry.1 entry.2) rules
  else rules ++ [(simpleRule type outbound).addValue entry.1 entry.2]

theorem any_eq_isSome_find? {α : Type*} (p : α → Bool) (xs : List α) :
    xs.any p = (xs.find? p).isSome := by
  rw [Bool.eq_iff_iff, List.find?_isSome, List.any_eq_true]

/-- **A line is added just when it is accepted.** -/
theorem appendToBucket_eq (rawRule : Text) (action : SimpleAction) (outbound : Option ℤ)
    (rules : List RouteRule) :
    appendToBucket checks rawRule action outbound rules =
      match lineEntry checks (trimSpace rawRule) with
      | none => (false, rules)
      | some entry => (true, withLine action outbound entry rules) := by
  unfold appendToBucket
  dsimp only
  cases hentry : lineEntry checks (trimSpace rawRule) with
  | none =>
    split
    · rfl
    · split
      · rfl
      · have herror := add_simple_rule_error checks (trimSpace_trimSpace rawRule) hentry action
        cases rules.find? (isBucket (get_rule_type (trimSpace rawRule) action) outbound) with
        | none =>
          obtain ⟨reason, hreason⟩ := herror
            (simpleRule (get_rule_type (trimSpace rawRule) action) outbound)
          dsimp only
          rw [hreason]
        | some rule =>
          obtain ⟨reason, hreason⟩ := herror rule
          dsimp only
          rw [hreason]
  | some entry =>
    obtain ⟨kind, value⟩ := entry
    have hvalues := simple_rule_values_of_lineEntry checks hentry
    have htype := get_rule_type_of_values checks (trimSpace_trimSpace rawRule) hvalues action
    have hok := add_simple_rule_ok checks (trimSpace_trimSpace rawRule) hentry action
    have hraw : trimSpace rawRule ≠ [] := by
      intro hnil
      rw [hnil] at hvalues
      cases hvalues
    rw [if_neg hraw, htype, if_neg (kindType_ne_custom action kind)]
    unfold withLine
    dsimp only
    rw [any_eq_isSome_find?]
    cases hfind : rules.find? (isBucket (kindType action kind) outbound) with
    | none =>
      dsimp only
      rw [hok, if_neg (by simp)]
    | some rule =>
      dsimp only
      rw [hok, if_pos (by simp)]
      exact congrArg _ (changeFirst_const hfind fun rule => rule.addValue kind value)

/-- The action and the outbound that `AppendSimpleRule` adds to. -/
def SimpleTarget.listAction (target : SimpleTarget) : SimpleAction :=
  if target.isServer then .viaProfile else target.action

def SimpleTarget.outbound (target : SimpleTarget) : Option ℤ :=
  if target.isServer then some target.serverID else none

theorem AppendSimpleRule_eq (rawRule : Text) (target : SimpleTarget) (rules : List RouteRule) :
    AppendSimpleRule checks rawRule target rules =
      match lineEntry checks (trimSpace rawRule) with
      | none => (false, rules)
      | some entry => (true, withLine target.listAction target.outbound entry rules) := by
  unfold AppendSimpleRule SimpleTarget.listAction SimpleTarget.outbound
  split
  · exact appendToBucket_eq checks rawRule .viaProfile (some target.serverID) rules
  · exact appendToBucket_eq checks rawRule target.action none rules

theorem isBucket_iff {type : RuleType} {outbound : Option ℤ} {rule : RouteRule} :
    isBucket type outbound rule = true ↔
      rule.type = type ∧ ∀ id, outbound = some id → rule.outboundID = id := by
  unfold isBucket
  cases outbound <;> simp

theorem isBucket_simpleRule (type : RuleType) (outbound : Option ℤ) :
    isBucket type outbound (simpleRule type outbound) = true := by
  refine isBucket_iff.mpr ⟨rfl, ?_⟩
  rintro id rfl
  rfl

theorem isBucket_addValue (type : RuleType) (outbound : Option ℤ) (rule : RouteRule)
    (kind : LineKind) (value : Text) :
    isBucket type outbound (rule.addValue kind value) = isBucket type outbound rule := by
  unfold isBucket
  rw [type_addValue, outboundID_addValue]

/-- Where the rule for a line of a target can be found. -/
theorem isRuleFor_iff_of_simple {darwin : Bool} {content : Text} {target : SimpleTarget}
    {rule : RouteRule} {type : RuleType} (htype : get_rule_type content target.listAction = type)
    (hne : type ≠ .custom) (hbucket : isBucket type target.outbound rule = true) :
    isRuleFor darwin content target rule = true := by
  obtain ⟨hrule, hout⟩ := isBucket_iff.mp hbucket
  unfold isRuleFor
  unfold SimpleTarget.listAction at htype
  dsimp only
  rw [htype, if_neg hne]
  unfold SimpleTarget.outbound at hout
  split
  · rename_i hserver
    simp [hrule, hout target.serverID (if_pos hserver)]
  · simp [hrule]

theorem belongs_of_isBucket {target : SimpleTarget} {kind : LineKind} {rule : RouteRule}
    (h : isBucket (kindType target.listAction kind) target.outbound rule = true) :
    belongs target rule = true := by
  obtain ⟨htype, hout⟩ := isBucket_iff.mp h
  have hmem := kindType_mem target.listAction kind
  rw [← htype] at hmem
  unfold belongs
  unfold SimpleTarget.listAction at hmem
  unfold SimpleTarget.outbound at hout
  split
  · rename_i hserver
    rw [if_pos hserver] at hmem
    simp [hmem, hout target.serverID (if_pos hserver)]
  · rename_i haction
    rw [if_neg haction] at hmem
    simpa using hmem

theorem HasSimpleRule_withLine {darwin : Bool} {rawRule : Text} {target : SimpleTarget}
    {entry : LineKind × Text} (h : lineEntry checks (trimSpace rawRule) = some entry)
    (rules : List RouteRule) :
    HasSimpleRule checks darwin rawRule target
      (withLine target.listAction target.outbound entry rules) = true := by
  obtain ⟨kind, value⟩ := entry
  have hvalues := simple_rule_values_of_lineEntry checks h
  have htype := get_rule_type_of_values checks (trimSpace_trimSpace rawRule) hvalues
    target.listAction
  have hholds : ∀ rule : RouteRule,
      holdsLine checks (trimSpace rawRule) (rule.addValue kind value) = true := by
    intro rule
    unfold holdsLine
    rw [hvalues]
    simp [values_addValue, mem_appendOnce]
  have hrule : ∀ rule : RouteRule,
      isBucket (kindType target.listAction kind) target.outbound rule = true →
        isRuleFor darwin (trimSpace rawRule) target (rule.addValue kind value) = true := by
    intro rule hbucket
    apply isRuleFor_iff_of_simple htype (kindType_ne_custom _ _)
    rwa [isBucket_addValue]
  unfold HasSimpleRule withLine
  dsimp only
  rw [List.any_eq_true]
  split
  · rename_i hany
    obtain ⟨rule, -, hbucket, hmem⟩ := exists_mem_changeFirst
      (f := fun rule : RouteRule => rule.addValue kind value) hany
    exact ⟨_, hmem, by rw [hrule rule hbucket, hholds]; rfl⟩
  · refine ⟨_, List.mem_append_right _ (List.mem_singleton_self _), ?_⟩
    rw [hrule _ (isBucket_simpleRule _ _), hholds]
    rfl

theorem withLine_others (target : SimpleTarget) (entry : LineKind × Text) (rules : List RouteRule) :
    (withLine target.listAction target.outbound entry rules).filter
        (fun rule => !belongs target rule) = rules.filter fun rule => !belongs target rule := by
  have hadd : ∀ rule : RouteRule,
      isBucket (kindType target.listAction entry.1) target.outbound rule = true →
        (!belongs target (rule.addValue entry.1 entry.2)) = false := by
    intro rule hbucket
    rw [belongs_congr (type_addValue rule entry.1 entry.2) (outboundID_addValue rule _ _),
      belongs_of_isBucket hbucket]
    rfl
  unfold withLine
  dsimp only
  split
  · apply filter_changeFirst _ hadd
    intro rule hbucket
    rw [belongs_of_isBucket hbucket]
    rfl
  · rw [List.filter_append, List.filter_cons_of_neg, List.filter_nil, List.append_nil]
    rw [hadd _ (isBucket_simpleRule _ _)]
    decide

/-! ## Removing a line -/

theorem isSimple_of_isRuleFor {darwin : Bool} {content : Text} {target : SimpleTarget}
    {rule : RouteRule} (h : isRuleFor darwin content target rule = true)
    (haction : target.isServer = false) : IsSimple rule := by
  have hbelongs := belongs_of_isRuleFor h
  unfold belongs at hbelongs
  rw [if_neg (by simp [haction]), decide_eq_true_eq] at hbelongs
  exact isSimple_of_mem_types hbelongs

theorem IsSimple.setValues {rule : RouteRule} (h : IsSimple rule) (kind : LineKind)
    (values : List Text) : IsSimple (rule.setValues kind values) := by
  unfold IsSimple
  rw [type_setValues]
  exact h

/-- What is left of a rule that holds a line: the rule without it, and that rule has a condition
or a list that is not empty. -/
theorem removeLine_eq_some {stores : Stores} {darwin : Bool} {content : Text}
    {target : SimpleTarget} {rule left : RouteRule}
    (hrule : isRuleFor darwin content target rule = true)
    (h : removeLine checks stores darwin content target rule = some left) {kind : LineKind}
    {value : Text} (hvalues : simple_rule_values checks content = some (kind, value)) :
    left = rule.setValues kind ((rule.values kind).filter (· ≠ value)) ∧
      if target.isServer then has_match_conditions darwin left = true
      else IsSimple left ∧ (isEmpty stores left).1 = false := by
  unfold removeLine at h
  rw [hvalues] at h
  dsimp only at h
  split at h
  · rename_i hserver
    split at h
    · rename_i hmatch
      cases h
      exact ⟨rfl, by rwa [if_pos hserver]⟩
    · cases h
  · rename_i haction
    have hsimple := (isSimple_of_isRuleFor hrule (Bool.eq_false_iff.mpr haction)).setValues kind
      ((rule.values kind).filter (· ≠ value))
    have hsame := (@isEmpty_simple stores _ hsimple).1
    split at h
    · cases h
    · rename_i hempty
      cases h
      rw [hsame]
      exact ⟨rfl, by rw [if_neg haction]; exact ⟨hsimple, Bool.eq_false_iff.mpr hempty⟩⟩

theorem exists_values_of_holdsLine {content : Text} {rule : RouteRule}
    (h : holdsLine checks content rule = true) :
    ∃ kind value, simple_rule_values checks content = some (kind, value) ∧
      value ∈ rule.values kind := by
  unfold holdsLine at h
  split at h
  · cases h
  · rename_i kind value hvalues
    exact ⟨kind, value, hvalues, of_decide_eq_true h⟩

/-- Each rule that is left is one of the rules, or what a removal leaves of one. -/
theorem mem_RemoveSimpleRule {stores : Stores} {darwin : Bool} {rawRule : Text}
    {target : SimpleTarget} {rules : List RouteRule} {left : RouteRule}
    (h : left ∈ (RemoveSimpleRule checks stores darwin rawRule target rules).2) :
    (left ∈ rules ∧ (isRuleFor darwin (trimSpace rawRule) target left &&
        holdsLine checks (trimSpace rawRule) left) = false) ∨
      ∃ rule ∈ rules, isRuleFor darwin (trimSpace rawRule) target rule = true ∧
        holdsLine checks (trimSpace rawRule) rule = true ∧
        removeLine checks stores darwin (trimSpace rawRule) target rule = some left := by
  obtain ⟨rule, hrule, hleft⟩ := List.mem_filterMap.mp h
  split at hleft
  · rename_i hcond
    rw [Bool.and_eq_true] at hcond
    exact .inr ⟨rule, hrule, hcond.1, hcond.2, hleft⟩
  · rename_i hcond
    cases hleft
    exact .inl ⟨hrule, Bool.eq_false_iff.mpr hcond⟩

theorem HasSimpleRule_removed (stores : Stores) (darwin : Bool) (rawRule : Text)
    (target : SimpleTarget) (rules : List RouteRule) :
    HasSimpleRule checks darwin rawRule target
      (RemoveSimpleRule checks stores darwin rawRule target rules).2 = false := by
  rw [Bool.eq_false_iff]
  intro hhas
  obtain ⟨left, hleft, hcond⟩ := List.any_eq_true.mp hhas
  rcases mem_RemoveSimpleRule checks hleft with ⟨-, hnot⟩ | ⟨rule, -, hrule, hholds, hremoved⟩
  · rw [hnot] at hcond
    cases hcond
  · obtain ⟨kind, value, hvalues, -⟩ := exists_values_of_holdsLine checks hholds
    obtain ⟨rfl, -⟩ := removeLine_eq_some checks hrule hremoved hvalues
    rw [Bool.and_eq_true] at hcond
    obtain ⟨kind', value', hvalues', hmem⟩ := exists_values_of_holdsLine checks hcond.2
    obtain ⟨rfl, rfl⟩ := Prod.mk.inj (Option.some_inj.mp (hvalues.symm.trans hvalues'))
    rw [values_setValues_self] at hmem
    simp at hmem

theorem removeLine_others (stores : Stores) (darwin : Bool) (rawRule : Text)
    (target : SimpleTarget) (rules : List RouteRule) :
    (RemoveSimpleRule checks stores darwin rawRule target rules).2.filter
        (fun rule => !belongs target rule) = rules.filter fun rule => !belongs target rule := by
  unfold RemoveSimpleRule
  dsimp only
  induction rules with
  | nil => rfl
  | cons rule rules ih =>
    rw [List.filterMap_cons]
    by_cases hcond : (isRuleFor darwin (trimSpace rawRule) target rule &&
        holdsLine checks (trimSpace rawRule) rule) = true
    · rw [if_pos hcond]
      rw [Bool.and_eq_true] at hcond
      have hbelongs := belongs_of_isRuleFor hcond.1
      rw [List.filter_cons_of_neg (a := rule) (by simp [hbelongs])]
      cases hleft : removeLine checks stores darwin (trimSpace rawRule) target rule with
      | none => exact ih
      | some left =>
        obtain ⟨kind, value, hvalues, -⟩ := exists_values_of_holdsLine checks hcond.2
        obtain ⟨rfl, -⟩ := removeLine_eq_some checks hcond.1 hleft hvalues
        dsimp only
        rw [List.filter_cons_of_neg, ih]
        rw [belongs_congr (type_setValues rule _ _) (outboundID_setValues rule _ _), hbelongs]
        decide
    · rw [if_neg hcond]
      dsimp only
      rw [List.filter_cons, List.filter_cons, ih]

/-! ## Conditions -/

/-- No list that lines go to holds a blank entry. -/
def NoBlank (rule : RouteRule) : Prop := ∀ kind, ∀ value ∈ rule.values kind, trimSpace value ≠ []

/-- A custom rule that routes to a server. -/
def IsServerRule (rule : RouteRule) : Prop :=
  rule.type = .custom ∧ rule.action = actionRoute ∧ 0 ≤ rule.outboundID

def LineKind.attribute : LineKind → Attribute
  | .domain => .domain
  | .domain_suffix => .domain_suffix
  | .domain_keyword => .domain_keyword
  | .domain_regex => .domain_regex
  | .rule_set => .rule_set
  | .ip_cidr => .ip_cidr
  | .process_name => .process_name
  | .process_path => .process_path

/-- A line is a condition. -/
theorem has_match_conditions_of_value {darwin : Bool} {rule : RouteRule} {kind : LineKind}
    {value : Text} (hmem : value ∈ rule.values kind) (hvalue : trimSpace value ≠ []) :
    has_match_conditions darwin rule = true := by
  have hvalid : isValidStrArray (rule.values kind) = true :=
    List.any_eq_true.mpr ⟨value, hmem, by simpa using hvalue⟩
  unfold has_match_conditions
  rw [Bool.or_eq_true]
  refine .inr (List.any_eq_true.mpr ⟨kind.attribute, ?_, ?_⟩)
  · cases darwin <;> cases kind <;> decide
  · rw [Bool.and_eq_true]
    exact ⟨by cases kind <;> decide, by cases kind <;> exact hvalid⟩

/-- A simple rule that is not empty has a condition. -/
theorem has_match_conditions_of_nonempty {stores : Stores} {darwin : Bool} {rule : RouteRule}
    (hsimple : IsSimple rule) (hblank : NoBlank rule) (h : (isEmpty stores rule).1 = false) :
    has_match_conditions darwin rule = true := by
  by_contra hnone
  have hempty : (isEmpty stores rule).1 = true := by
    apply (isEmpty_simple hsimple).2.mpr
    intro kind _
    refine List.eq_nil_iff_forall_not_mem.mpr fun value hvalue => hnone ?_
    exact has_match_conditions_of_value hvalue (hblank kind value hvalue)
  rw [h] at hempty
  cases hempty

theorem NoBlank.addValue {rule : RouteRule} (h : NoBlank rule) {value : Text}
    (hvalue : trimSpace value ≠ []) (kind : LineKind) : NoBlank (rule.addValue kind value) := by
  intro other v hv
  rw [values_addValue] at hv
  split at hv
  · rcases mem_appendOnce.mp hv with hmem | rfl
    · exact h kind v hmem
    · exact hvalue
  · exact h other v hv

theorem NoBlank.setFilter {rule : RouteRule} (h : NoBlank rule) (kind : LineKind)
    (p : Text → Bool) : NoBlank (rule.setValues kind ((rule.values kind).filter p)) := by
  intro other v hv
  by_cases heq : other = kind
  · subst heq
    rw [values_setValues_self] at hv
    exact h other v (List.mem_of_mem_filter hv)
  · rw [values_setValues_of_ne heq] at hv
    exact h other v hv

theorem noBlank_simpleRule (type : RuleType) (outbound : Option ℤ) :
    NoBlank (simpleRule type outbound) := by
  intro kind value hvalue
  cases kind <;> exact absurd hvalue List.not_mem_nil

/-- What is stored of an accepted line is not blank. -/
theorem trimSpace_value_ne_nil {raw : Text} {kind : LineKind} {value : Text}
    (h : lineEntry checks raw = some (kind, value)) : trimSpace value ≠ [] := by
  obtain ⟨left, right, -, -, hright, rfl⟩ :=
    (simple_rule_values_eq_some checks).mp (simple_rule_values_of_lineEntry checks h)
  unfold LineKind.stored
  split
  · rw [checks.trimSpace_toLower, trimSpace_trimSpace, Ne, checks.toLower_eq_nil]
    exact hright
  · rw [trimSpace_trimSpace]
    exact hright

/-! ## Runs -/

/-- What the basic lists of a profile are edited with. -/
inductive SimpleEdit where
  | append (rawRule : Text) (target : SimpleTarget)
  | remove (rawRule : Text) (target : SimpleTarget)
  | removeViaProfile (profileID : ℤ)
  | update (content : Text) (action : SimpleAction) (outbound : Option ℤ)

def applyEdit (stores : Stores) (darwin : Bool) (rules : List RouteRule) :
    SimpleEdit → List RouteRule
  | .append rawRule target => (AppendSimpleRule checks rawRule target rules).2
  | .remove rawRule target => (RemoveSimpleRule checks stores darwin rawRule target rules).2
  | .removeViaProfile profileID => RemoveSimpleViaProfile profileID rules
  | .update content action outbound =>
    (UpdateSimpleRules checks stores content action outbound rules).2

/-- Every simple rule has a condition and no blank entry. -/
def SimpleRulesMatch (darwin : Bool) (rules : List RouteRule) : Prop :=
  ∀ rule ∈ rules, IsSimple rule → has_match_conditions darwin rule = true ∧ NoBlank rule

/-- No catch-all has come in: the simple rules have conditions, and so has each server rule that
was not there at the start. -/
def NoCatchAll (darwin : Bool) (start rules : List RouteRule) : Prop :=
  SimpleRulesMatch darwin rules ∧
    ∀ rule ∈ rules, IsServerRule rule → has_match_conditions darwin rule = true ∨ rule ∈ start

variable {checks}

/-- A rule with one line more. -/
theorem NoCatchAll.withLine {darwin : Bool} {start rules : List RouteRule}
    (h : NoCatchAll darwin start rules) {action : SimpleAction} {outbound : Option ℤ}
    {entry : LineKind × Text} (hvalue : trimSpace entry.2 ≠ []) :
    NoCatchAll darwin start (withLine action outbound entry rules) := by
  have hmatch : ∀ rule : RouteRule,
      has_match_conditions darwin (rule.addValue entry.1 entry.2) = true := by
    intro rule
    have hmem : entry.2 ∈ (rule.addValue entry.1 entry.2).values entry.1 := by
      rw [values_addValue, if_pos rfl]
      exact mem_appendOnce.mpr (.inr rfl)
    exact has_match_conditions_of_value hmem hvalue
  have hnew : ∀ rule ∈ Routes.withLine action outbound entry rules, rule ∈ rules ∨
      ∃ old : RouteRule, rule = old.addValue entry.1 entry.2 ∧ IsSimple old ∧
        (old ∈ rules ∨ NoBlank old) := by
    intro rule hrule
    have htypes := kindType_mem action entry.1
    unfold Routes.withLine at hrule
    dsimp only at hrule
    split at hrule
    · rcases mem_changeFirst hrule with hmem | ⟨old, hold, hbucket, rfl⟩
      · exact .inl hmem
      · have htype := (isBucket_iff.mp hbucket).1
        exact .inr ⟨old, rfl, isSimple_of_mem_types (htype ▸ htypes), .inl hold⟩
    · rcases List.mem_append.mp hrule with hmem | hmem
      · exact .inl hmem
      · exact .inr ⟨_, List.mem_singleton.mp hmem, isSimple_of_mem_types htypes,
          .inr (noBlank_simpleRule _ _)⟩
  constructor
  · intro rule hrule hsimple
    rcases hnew rule hrule with hmem | ⟨old, rfl, hold, hfrom⟩
    · exact h.1 rule hmem hsimple
    · refine ⟨hmatch old, NoBlank.addValue ?_ hvalue entry.1⟩
      exact hfrom.elim (fun hmem => (h.1 old hmem hold).2) id
  · intro rule hrule hserver
    rcases hnew rule hrule with hmem | ⟨old, rfl, -, -⟩
    · exact h.2 rule hmem hserver
    · exact .inl (hmatch old)

theorem NoCatchAll.append {darwin : Bool} {start rules : List RouteRule}
    (h : NoCatchAll darwin start rules) (rawRule : Text) (target : SimpleTarget) :
    NoCatchAll darwin start (AppendSimpleRule checks rawRule target rules).2 := by
  rw [AppendSimpleRule_eq]
  cases hentry : lineEntry checks (trimSpace rawRule) with
  | none => exact h
  | some entry => exact h.withLine (trimSpace_value_ne_nil checks hentry)

theorem NoCatchAll.remove {stores : Stores} {darwin : Bool} {start rules : List RouteRule}
    (h : NoCatchAll darwin start rules) (rawRule : Text) (target : SimpleTarget) :
    NoCatchAll darwin start (RemoveSimpleRule checks stores darwin rawRule target rules).2 := by
  constructor
  · intro left hleft hsimple
    rcases mem_RemoveSimpleRule checks hleft with ⟨hmem, -⟩ | ⟨rule, hmem, hrule, hholds, hremoved⟩
    · exact h.1 left hmem hsimple
    · obtain ⟨kind, value, hvalues, -⟩ := exists_values_of_holdsLine checks hholds
      obtain ⟨rfl, hkept⟩ := removeLine_eq_some checks hrule hremoved hvalues
      have hold : IsSimple rule := by
        unfold IsSimple at hsimple ⊢
        rwa [type_setValues] at hsimple
      have hblank := (h.1 rule hmem hold).2.setFilter kind (· ≠ value)
      refine ⟨?_, hblank⟩
      split at hkept
      · exact hkept
      · exact has_match_conditions_of_nonempty hsimple hblank hkept.2
  · intro left hleft hserver
    rcases mem_RemoveSimpleRule checks hleft with ⟨hmem, -⟩ | ⟨rule, hmem, hrule, hholds, hremoved⟩
    · exact h.2 left hmem hserver
    · obtain ⟨kind, value, hvalues, -⟩ := exists_values_of_holdsLine checks hholds
      obtain ⟨-, hkept⟩ := removeLine_eq_some checks hrule hremoved hvalues
      split at hkept
      · exact .inl hkept
      · exact absurd hserver.1 hkept.1.1

/-- While a text is worked in, the simple rules have no blank entries, and no other rule is new. -/
def NoBlankSince (start rules : List RouteRule) : Prop :=
  ∀ rule ∈ rules, (IsSimple rule → NoBlank rule) ∧ (¬ IsSimple rule → rule ∈ start)

theorem NoBlankSince.reset {start rules : List RouteRule} (h : NoBlankSince start rules)
    (action : SimpleAction) {type : RuleType} (htype : type ∈ simple_rule_types action)
    (outbound : Option ℤ) : NoBlankSince start (ResetSimpleRule type outbound rules) := by
  have hnew : ∀ rule : RouteRule, rule.type = type → (∀ kind, rule.values kind = []) →
      (IsSimple rule → NoBlank rule) ∧ (¬ IsSimple rule → rule ∈ start) := by
    intro rule hrule hvalues
    refine ⟨fun _ kind value hvalue => ?_, fun hnot => ?_⟩
    · rw [hvalues kind] at hvalue
      exact absurd hvalue List.not_mem_nil
    · exact absurd (isSimple_of_mem_types (hrule ▸ htype)) hnot
  intro rule hrule
  unfold ResetSimpleRule at hrule
  split at hrule
  · rcases mem_changeFirst hrule with hmem | ⟨old, -, -, rfl⟩
    · exact h rule hmem
    · exact hnew _ rfl fun kind => by cases kind <;> rfl
  · rcases List.mem_append.mp hrule with hmem | hmem
    · exact h rule hmem
    · rw [List.mem_singleton.mp hmem]
      exact hnew _ rfl fun kind => by cases kind <;> rfl

theorem NoBlankSince.addEntry {start rules : List RouteRule} (h : NoBlankSince start rules)
    {entry : LineKind × Text} (hvalue : trimSpace entry.2 ≠ []) (action : SimpleAction)
    (outbound : Option ℤ) : NoBlankSince start (addEntry action outbound rules entry) := by
  intro rule hrule
  rcases mem_changeFirst hrule with hmem | ⟨old, hold, hbucket, rfl⟩
  · exact h rule hmem
  · have hsimple : IsSimple old :=
      isSimple_of_mem_types ((isBucket_iff.mp hbucket).1 ▸ kindType_mem action entry.1)
    refine ⟨fun _ => ((h old hold).1 hsimple).addValue hvalue entry.1, fun hnot => absurd ?_ hnot⟩
    unfold IsSimple
    rw [type_addValue]
    exact hsimple

theorem mem_FilterEmptyRules {stores : Stores} {rules : List RouteRule} {rule : RouteRule} :
    rule ∈ FilterEmptyRules stores rules ↔
      ∃ old ∈ rules, (isEmpty stores old).1 = false ∧ (isEmpty stores old).2 = rule := by
  unfold FilterEmptyRules
  rw [List.mem_filterMap]
  refine exists_congr fun old => and_congr_right fun _ => ?_
  dsimp only
  cases (isEmpty stores old).1 <;> simp

/-- A server rule is left as it is by the test. -/
theorem isEmpty_serverRule {stores : Stores} {rule : RouteRule}
    (h : IsServerRule (isEmpty stores rule).2) : (isEmpty stores rule).2 = rule := by
  apply isEmpty_left
  intro hrewritten
  have hcustom : rule.type = .custom := by
    rw [← type_isEmpty stores]
    exact h.1
  have hout := outboundID_isEmpty stores rule
  have hnonneg := h.2.2
  rw [hout] at hnonneg
  rcases hrewritten.2.2 with hblock | hdns
  · rw [hblock] at hnonneg
    exact absurd hnonneg (by decide)
  · rw [hdns] at hnonneg
    exact absurd hnonneg (by decide)

theorem NoCatchAll.update {stores : Stores} {darwin : Bool} {start rules : List RouteRule}
    (h : NoCatchAll darwin start rules) (content : Text) (action : SimpleAction)
    (outbound : Option ℤ) :
    NoCatchAll darwin start (UpdateSimpleRules checks stores content action outbound rules).2 := by
  have hstart : NoBlankSince rules rules := fun rule hrule =>
    ⟨fun hsimple => (h.1 rule hrule hsimple).2, fun _ => hrule⟩
  have hreset : NoBlankSince rules ((simple_rule_types action).foldl (fun rules type =>
      ResetSimpleRule type outbound rules) rules) := by
    unfold simple_rule_types
    have haddress := hstart.reset action (kindType_mem action .domain) outbound
    have hname := haddress.reset action (kindType_mem action .process_name) outbound
    exact hname.reset action (kindType_mem action .process_path) outbound
  have hadded : ∀ (es : List (LineKind × Text)) (rs : List RouteRule),
      (∀ entry ∈ es, trimSpace entry.2 ≠ []) → NoBlankSince rules rs →
        NoBlankSince rules (es.foldl (addEntry action outbound) rs) := by
    intro es
    induction es with
    | nil => exact fun rs _ hrs => hrs
    | cons entry es ih =>
      intro rs hes hrs
      exact ih _ (fun e he => hes e (List.mem_cons_of_mem _ he))
        (hrs.addEntry (hes entry List.mem_cons_self) action outbound)
  have hentries : ∀ entry ∈ entries checks content, trimSpace entry.2 ≠ [] := by
    intro entry hentry
    obtain ⟨item, -, hitem⟩ := List.mem_filterMap.mp hentry
    exact trimSpace_value_ne_nil checks hitem
  have hall := hadded _ _ hentries hreset
  rw [UpdateSimpleRules_rules]
  constructor
  · intro rule hrule hsimple
    obtain ⟨old, hold, hempty, rfl⟩ := mem_FilterEmptyRules.mp hrule
    have hsimple' : IsSimple old := by
      unfold IsSimple at hsimple ⊢
      rwa [type_isEmpty] at hsimple
    rw [(isEmpty_simple hsimple').1]
    have hblank := (hall old hold).1 hsimple'
    exact ⟨has_match_conditions_of_nonempty hsimple' hblank hempty, hblank⟩
  · intro rule hrule hserver
    obtain ⟨old, hold, -, rfl⟩ := mem_FilterEmptyRules.mp hrule
    have hsame := isEmpty_serverRule hserver
    rw [hsame] at hserver ⊢
    exact h.2 old ((hall old hold).2 fun hsimple => hsimple.1 hserver.1) hserver

theorem NoCatchAll.applyEdit {stores : Stores} {darwin : Bool} {start rules : List RouteRule}
    (h : NoCatchAll darwin start rules) (edit : SimpleEdit) :
    NoCatchAll darwin start (applyEdit checks stores darwin rules edit) := by
  cases edit with
  | append rawRule target => exact h.append rawRule target
  | remove rawRule target => exact h.remove rawRule target
  | removeViaProfile profileID =>
    exact ⟨fun rule hrule => h.1 rule (List.mem_of_mem_filter hrule),
      fun rule hrule => h.2 rule (List.mem_of_mem_filter hrule)⟩
  | update content action outbound => exact h.update content action outbound

variable (checks)

/-- **What a line is added to and removed from.**  An added line is found, a refused one changes
nothing, a removed one is gone, targets apart keep their lines, and no sequence of edits leaves a
rule without a condition. -/
theorem simpleRules_kept (stores : Stores) (darwin : Bool) :
    (∀ rawRule target rules, (AppendSimpleRule checks rawRule target rules).1 = true →
      HasSimpleRule checks darwin rawRule target (AppendSimpleRule checks rawRule target rules).2 =
        true) ∧
    (∀ rawRule target rules, (AppendSimpleRule checks rawRule target rules).1 = false →
      (AppendSimpleRule checks rawRule target rules).2 = rules) ∧
    (∀ rawRule target rules,
      HasSimpleRule checks darwin rawRule target
          (RemoveSimpleRule checks stores darwin rawRule target rules).2 = false ∧
        (RemoveSimpleRule checks stores darwin rawRule target rules).1 =
          HasSimpleRule checks darwin rawRule target rules) ∧
    (∀ target other, Apart target other → ∀ rawRule line rules,
      HasSimpleRule checks darwin line other (AppendSimpleRule checks rawRule target rules).2 =
          HasSimpleRule checks darwin line other rules ∧
        HasSimpleRule checks darwin line other
            (RemoveSimpleRule checks stores darwin rawRule target rules).2 =
          HasSimpleRule checks darwin line other rules) ∧
    (∀ rules, SimpleRulesMatch darwin rules → ∀ edits,
      NoCatchAll darwin rules (runAll (applyEdit checks stores darwin) rules edits)) := by
  refine ⟨fun rawRule target rules h => ?_, fun rawRule target rules h => ?_,
    fun rawRule target rules => ⟨HasSimpleRule_removed checks stores darwin rawRule target rules,
      rfl⟩, fun target other hapart rawRule line rules => ⟨?_, ?_⟩, fun rules h edits => ?_⟩
  · rw [AppendSimpleRule_eq] at h ⊢
    cases hentry : lineEntry checks (trimSpace rawRule) with
    | none =>
      rw [hentry] at h
      cases h
    | some entry => exact HasSimpleRule_withLine checks hentry rules
  · rw [AppendSimpleRule_eq] at h ⊢
    cases hentry : lineEntry checks (trimSpace rawRule) with
    | none => rfl
    | some entry =>
      rw [hentry] at h
      cases h
  · rw [AppendSimpleRule_eq]
    cases lineEntry checks (trimSpace rawRule) with
    | none => rfl
    | some entry =>
      dsimp only
      rw [← HasSimpleRule_filter checks hapart, withLine_others target entry,
        HasSimpleRule_filter checks hapart]
  · rw [← HasSimpleRule_filter checks hapart, removeLine_others,
      HasSimpleRule_filter checks hapart]
  · exact runAll_invariant (fun rules edit hrules => hrules.applyEdit edit)
      ⟨h, fun rule hrule _ => .inr hrule⟩ edits

/-- The targets of a server and of all servers share rules, and a blank entry keeps an empty rule
of an action in the list. -/
theorem sharedRules_and_blankEntry :
    (∃ rules : List RouteRule, ∃ target other : SimpleTarget, target ≠ other ∧
      HasSimpleRule LineChecks.lenient false "domain:b.org".toList other
          (AppendSimpleRule LineChecks.lenient "domain:b.org".toList target rules).2 ≠
        HasSimpleRule LineChecks.lenient false "domain:b.org".toList other rules) ∧
    ∃ rules : List RouteRule,
      (∀ rule ∈ rules, IsSimple rule → has_match_conditions false rule = true) ∧
        ∃ rule ∈ (RemoveSimpleRule LineChecks.lenient ⟨fun _ => none, id⟩ false
          "domain:a.org".toList {} rules).2,
          IsSimple rule ∧ has_match_conditions false rule = false := by
  refine ⟨⟨[{ type := .simpleAddressViaProfile, outboundID := 5 }], { action := .viaProfile },
    { serverID := 5 }, by decide, by decide +kernel⟩,
    ⟨[{ type := .simpleAddressProxy, domain := [[], "a.org".toList] }], ?_, ?_⟩⟩
  · intro rule hrule _
    rw [List.mem_singleton.mp hrule]
    decide +kernel
  · exact ⟨{ type := .simpleAddressProxy, domain := [[]] }, by decide +kernel, ⟨by decide, by decide⟩,
      by decide +kernel⟩

end Throned.Routes
