import Throned.Analysis.SimpleTargets

/-!
# The lines of an action rewritten

An update gives the first rule of each type new lines and drops what is empty.  The lines listed
after it are those of the text just when no other rule of these types has lines.
-/

set_option autoImplicit false

namespace Throned.Routes

open Throned.Library

variable (checks : LineChecks)

/-! ## The rules of an action -/

/-- The type of a rule that holds lines of the action. -/
def bucketKey (action : SimpleAction) (outbound : Option ℤ) (rule : RouteRule) : Option RuleType :=
  if rule.type ∈ simple_rule_types action ∧ outbound.all (fun id => rule.outboundID = id) = true then
    some rule.type
  else none

theorem bucketKey_eq_some {action : SimpleAction} {outbound : Option ℤ} {rule : RouteRule}
    {type : RuleType} :
    bucketKey action outbound rule = some type ↔
      type ∈ simple_rule_types action ∧ isBucket type outbound rule = true := by
  unfold bucketKey isBucket
  split
  · rename_i h
    rw [Option.some_inj, Bool.and_eq_true, decide_eq_true_eq]
    constructor
    · rintro rfl
      exact ⟨h.1, rfl, h.2⟩
    · exact fun h => h.2.1
  · rename_i h
    refine iff_of_false (by simp) ?_
    rintro ⟨htype, hbucket⟩
    rw [Bool.and_eq_true, decide_eq_true_eq] at hbucket
    exact h ⟨hbucket.1 ▸ htype, hbucket.2⟩

theorem isBucket_eq {action : SimpleAction} {type : RuleType}
    (htype : type ∈ simple_rule_types action) (outbound : Option ℤ) :
    isBucket type outbound = fun rule => decide (bucketKey action outbound rule = some type) := by
  funext rule
  rw [Bool.eq_iff_iff, decide_eq_true_eq, bucketKey_eq_some]
  exact ⟨fun h => ⟨htype, h⟩, And.right⟩

theorem nodup_simple_rule_types (action : SimpleAction) : (simple_rule_types action).Nodup := by
  cases action <;> decide

theorem bucketKey_congr {action : SimpleAction} {outbound : Option ℤ} {a b : RouteRule}
    (htype : a.type = b.type) (hout : a.outboundID = b.outboundID) :
    bucketKey action outbound a = bucketKey action outbound b := by
  unfold bucketKey
  rw [htype, hout]

theorem bucketKey_simpleRule {action : SimpleAction} {type : RuleType}
    (h : type ∈ simple_rule_types action) (outbound : Option ℤ) :
    bucketKey action outbound (simpleRule type outbound) = some type :=
  bucketKey_eq_some.mpr ⟨h, isBucket_simpleRule type outbound⟩

theorem bucketKey_resetRule {action : SimpleAction} {outbound : Option ℤ} {type : RuleType}
    {rule : RouteRule} (h : bucketKey action outbound rule = some type) :
    bucketKey action outbound (resetRule type outbound rule) = some type :=
  bucketKey_simpleRule (bucketKey_eq_some.mp h).1 outbound

/-! ## Many lines for one rule -/

/-- The lines for the rule of the type. -/
def ofType (action : SimpleAction) (type : RuleType) (es : List (LineKind × Text)) :
    List (LineKind × Text) :=
  es.filter fun e => kindType action e.1 = type

def RouteRule.addAll (rule : RouteRule) (es : List (LineKind × Text)) : RouteRule :=
  es.foldl (fun rule e => rule.addValue e.1 e.2) rule

@[simp] theorem type_addAll (rule : RouteRule) (es : List (LineKind × Text)) :
    (rule.addAll es).type = rule.type := by
  induction es generalizing rule with
  | nil => rfl
  | cons e es ih => exact (ih _).trans (type_addValue _ _ _)

@[simp] theorem outboundID_addAll (rule : RouteRule) (es : List (LineKind × Text)) :
    (rule.addAll es).outboundID = rule.outboundID := by
  induction es generalizing rule with
  | nil => rfl
  | cons e es ih => exact (ih _).trans (outboundID_addValue _ _ _)

@[simp] theorem disabled_addAll (rule : RouteRule) (es : List (LineKind × Text)) :
    (rule.addAll es).disabled = rule.disabled := by
  induction es generalizing rule with
  | nil => rfl
  | cons e es ih => exact (ih _).trans (disabled_addValue _ _ _)

theorem eraseLines_addAll (rule : RouteRule) (es : List (LineKind × Text)) :
    (rule.addAll es).eraseLines = rule.eraseLines := by
  induction es generalizing rule with
  | nil => rfl
  | cons e es ih => exact (ih _).trans (eraseLines_setValues _ _ _)

theorem values_addAll (rule : RouteRule) (es : List (LineKind × Text)) (kind : LineKind) :
    (rule.addAll es).values kind =
      ((es.filter fun e => e.1 = kind).map Prod.snd).foldl appendOnce (rule.values kind) := by
  induction es generalizing rule with
  | nil => rfl
  | cons e es ih =>
    have hstep := ih (rule.addValue e.1 e.2)
    rw [values_addValue] at hstep
    by_cases hkind : e.1 = kind
    · subst hkind
      rw [if_pos rfl] at hstep
      rw [List.filter_cons_of_pos (by simp)]
      exact hstep
    · rw [if_neg (Ne.symm hkind)] at hstep
      rw [List.filter_cons_of_neg (by simp [hkind])]
      exact hstep

theorem mem_foldl_appendOnce {values added : List Text} {v : Text} :
    v ∈ added.foldl appendOnce values ↔ v ∈ values ∨ v ∈ added := by
  induction added generalizing values with
  | nil => simp
  | cons a added ih =>
    rw [List.foldl_cons, ih, mem_appendOnce, List.mem_cons, or_assoc]

theorem nodup_foldl_appendOnce {values : List Text} (h : values.Nodup) (added : List Text) :
    (added.foldl appendOnce values).Nodup := by
  induction added generalizing values with
  | nil => exact h
  | cons a added ih => exact ih (nodup_appendOnce h a)

theorem foldl_appendOnce_eq {values added : List Text} (h : (values ++ added).Nodup) :
    added.foldl appendOnce values = values ++ added := by
  induction added generalizing values with
  | nil => exact (List.append_nil values).symm
  | cons a added ih =>
    have hnew : a ∉ values := fun hmem =>
      (List.nodup_append.mp h).2.2 a hmem a List.mem_cons_self rfl
    rw [List.append_cons] at h
    rw [List.foldl_cons, appendOnce, if_neg hnew, ih h, ← List.append_cons]

/-! ## What an update comes to -/

/-- The rule of the type with its new lines. -/
def rewritten (action : SimpleAction) (outbound : Option ℤ) (es : List (LineKind × Text))
    (type : RuleType) (rule : RouteRule) : RouteRule :=
  (resetRule type outbound rule).addAll (ofType action type es)

def written (action : SimpleAction) (outbound : Option ℤ) (es : List (LineKind × Text))
    (type : RuleType) : RouteRule :=
  (simpleRule type outbound).addAll (ofType action type es)

section Normal

variable (action : SimpleAction) (outbound : Option ℤ) (rules : List RouteRule)

/-- One rule of each type is reset or made. -/
theorem resets_eq :
    (simple_rule_types action).foldl (fun rules type => ResetSimpleRule type outbound rules) rules =
      firstsAndMade (bucketKey action outbound) (rewritten action outbound [])
        (written action outbound []) (simple_rule_types action) rules := by
  have hstep : ∀ (types done : List RuleType), done ++ types <+: simple_rule_types action →
      types.foldl (fun rules type => ResetSimpleRule type outbound rules)
        (firstsAndMade (bucketKey action outbound)
          (fun t r => if t ∈ done then resetRule t outbound r else r)
          (fun t => simpleRule t outbound) done rules) =
      firstsAndMade (bucketKey action outbound)
        (fun t r => if t ∈ done ++ types then resetRule t outbound r else r)
        (fun t => simpleRule t outbound) (done ++ types) rules := by
    intro types
    induction types with
    | nil =>
      intro done _
      rw [List.append_nil]
      rfl
    | cons type types ih =>
      intro done hstarts
      have hmem : type ∈ simple_rule_types action :=
        hstarts.subset (List.mem_append_right _ List.mem_cons_self)
      have hdone : done.Nodup ∧ type ∉ done := by
        have hnodup := (nodup_simple_rule_types action).sublist hstarts.sublist
        have hparts := List.nodup_append.mp hnodup
        exact ⟨hparts.1, fun hd => hparts.2.2 type hd type List.mem_cons_self rfl⟩
      have hkeys : ∀ t r, bucketKey action outbound r = some t →
          bucketKey action outbound (if t ∈ done then resetRule t outbound r else r) = some t := by
        intro t r hr
        split
        · exact bucketKey_resetRule hr
        · exact hr
      have hmade : ∀ t ∈ done, bucketKey action outbound (simpleRule t outbound) = some t :=
        fun t ht => bucketKey_simpleRule (hstarts.subset (List.mem_append_left _ ht)) outbound
      have hone : ResetSimpleRule type outbound (firstsAndMade (bucketKey action outbound)
          (fun t r => if t ∈ done then resetRule t outbound r else r)
          (fun t => simpleRule t outbound) done rules) =
          firstsAndMade (bucketKey action outbound)
            (fun t r => if t ∈ done ++ [type] then resetRule t outbound r else r)
            (fun t => simpleRule t outbound) (done ++ [type]) rules := by
        have hnew := @firstsAndMade_append _ _ _ _ _ _ _ rules hkeys hmade hdone.1 _ hdone.2
          (resetRule type outbound)
        unfold ResetSimpleRule
        rw [isBucket_eq hmem outbound]
        refine hnew.trans (congrArg (fun f => firstsAndMade _ f _ _ _) ?_)
        funext t r
        by_cases ht : t = type
        · subst ht
          simp [hdone.2]
        · simp [ht]
      rw [List.foldl_cons, hone, ih (done ++ [type]) (by rwa [List.append_assoc]),
        List.append_assoc]
      rfl
  have hall := hstep (simple_rule_types action) [] (List.prefix_refl _)
  have hstart : firstsAndMade (bucketKey action outbound)
      (fun t r => if t ∈ ([] : List RuleType) then resetRule t outbound r else r)
      (fun t => simpleRule t outbound) [] rules = rules := by
    unfold firstsAndMade
    rw [List.filter_nil, List.map_nil, List.append_nil]
    exact changeFirsts_eq_self fun e _ => if_neg List.not_mem_nil
  rw [hstart] at hall
  rw [hall]
  unfold firstsAndMade
  refine congrArg (· ++ _) (changeFirsts_congr fun e he => if_pos ?_)
  exact (bucketKey_eq_some.mp (mem_firsts he).1).1

theorem ofType_append (type : RuleType) (es : List (LineKind × Text)) (e : LineKind × Text) :
    ofType action type (es ++ [e]) =
      if type = kindType action e.1 then ofType action type es ++ [e] else ofType action type es := by
  unfold ofType
  rw [List.filter_append]
  split
  · rename_i htype
    rw [List.filter_cons_of_pos (by simp [htype]), List.filter_nil]
  · rename_i htype
    rw [List.filter_cons_of_neg (by simp [Ne.symm htype]), List.filter_nil, List.append_nil]

theorem addAll_append (rule : RouteRule) (es : List (LineKind × Text)) (e : LineKind × Text) :
    rule.addAll (es ++ [e]) = (rule.addAll es).addValue e.1 e.2 := by
  unfold RouteRule.addAll
  rw [List.foldl_append]
  rfl

variable {action outbound} in
theorem bucketKey_rewritten (es : List (LineKind × Text)) (type : RuleType) (rule : RouteRule)
    (h : bucketKey action outbound rule = some type) :
    bucketKey action outbound (rewritten action outbound es type rule) = some type := by
  rw [← bucketKey_resetRule h]
  exact bucketKey_congr (type_addAll _ _) (outboundID_addAll _ _)

variable {action} in
theorem bucketKey_written (es : List (LineKind × Text)) (type : RuleType)
    (h : type ∈ simple_rule_types action) :
    bucketKey action outbound (written action outbound es type) = some type := by
  rw [← bucketKey_simpleRule h outbound]
  exact bucketKey_congr (type_addAll _ _) (outboundID_addAll _ _)

/-- **Each line goes to the one rule of its type.** -/
theorem adds_eq (es : List (LineKind × Text)) :
    es.foldl (addEntry action outbound)
        (firstsAndMade (bucketKey action outbound) (rewritten action outbound [])
          (written action outbound []) (simple_rule_types action) rules) =
      firstsAndMade (bucketKey action outbound) (rewritten action outbound es)
        (written action outbound es) (simple_rule_types action) rules := by
  induction es using List.reverseRecOn with
  | nil => rfl
  | append_singleton es e ih =>
    rw [List.foldl_append, ih, List.foldl_cons, List.foldl_nil]
    unfold addEntry
    rw [isBucket_eq (kindType_mem action e.1) outbound,
      changeFirst_firstsAndMade (bucketKey_rewritten es) (bucketKey_written outbound es)
        (nodup_simple_rule_types action)]
    have hadd : ∀ (type : RuleType) (rule : RouteRule),
        rule.addAll (ofType action type (es ++ [e])) =
          if type = kindType action e.1 then (rule.addAll (ofType action type es)).addValue e.1 e.2
          else rule.addAll (ofType action type es) := by
      intro type rule
      rw [ofType_append]
      split
      · exact addAll_append rule _ e
      · rfl
    unfold rewritten written
    refine congrArg₂ (fun f item => firstsAndMade _ f item _ _) ?_ ?_
    · funext type rule
      exact (hadd type _).symm
    · funext type
      exact (hadd type _).symm

/-- **What an update comes to.** -/
theorem UpdateSimpleRules_eq (stores : Stores) (content : Text) :
    (UpdateSimpleRules checks stores content action outbound rules).2 =
      FilterEmptyRules stores (firstsAndMade (bucketKey action outbound)
        (rewritten action outbound (entries checks content))
        (written action outbound (entries checks content)) (simple_rule_types action) rules) := by
  rw [UpdateSimpleRules_rules, resets_eq, adds_eq]

end Normal

/-! ## What is listed -/

/-- The lines of a rule, each as its list and its value. -/
def ruleEntries (rule : RouteRule) : List (LineKind × Text) :=
  LineKind.all.flatMap fun kind => (rule.values kind).map fun value => (kind, value)

theorem ruleLines_eq (rule : RouteRule) : ruleLines rule = (ruleEntries rule).map lineText := by
  unfold ruleLines ruleEntries
  rw [List.map_flatMap]
  simp only [List.map_map]
  rfl

theorem mem_all (kind : LineKind) : kind ∈ LineKind.all := by cases kind <;> decide

theorem nodup_all : LineKind.all.Nodup := by decide

theorem mem_ruleEntries {rule : RouteRule} {entry : LineKind × Text} :
    entry ∈ ruleEntries rule ↔ entry.2 ∈ rule.values entry.1 := by
  obtain ⟨kind, value⟩ := entry
  simp [ruleEntries, mem_all]

theorem nodup_ruleEntries {rule : RouteRule} (h : ∀ kind, (rule.values kind).Nodup) :
    (ruleEntries rule).Nodup := by
  refine List.nodup_flatMap.mpr ⟨fun kind _ => ?_, nodup_all.imp fun {a b} hab => ?_⟩
  · exact (h kind).map fun a b hab => (Prod.mk.inj hab).2
  · intro entry ha hb
    obtain ⟨_, -, rfl⟩ := List.mem_map.mp ha
    obtain ⟨_, -, heq⟩ := List.mem_map.mp hb
    exact hab (Prod.mk.inj heq).1.symm

theorem filter_ruleEntries (rule : RouteRule) (kind : LineKind) :
    ((ruleEntries rule).filter fun e => e.1 = kind).map Prod.snd = rule.values kind := by
  unfold ruleEntries LineKind.all
  cases kind <;>
    simp [List.filter_append, List.filter_map, Function.comp_def]

theorem ruleEntries_eq_nil {rule : RouteRule} :
    ruleEntries rule = [] ↔ ∀ kind, rule.values kind = [] := by
  constructor
  · intro h kind
    rw [← filter_ruleEntries rule kind, h]
    rfl
  · intro h
    refine List.eq_nil_iff_forall_not_mem.mpr fun entry hentry => ?_
    rw [mem_ruleEntries, h] at hentry
    exact List.not_mem_nil hentry

def listedEntries (action : SimpleAction) (outbound : Option ℤ) (rules : List RouteRule) :
    List (LineKind × Text) :=
  (rules.filter fun rule => (bucketKey action outbound rule).isSome).flatMap ruleEntries

theorem listedLines_eq (action : SimpleAction) (outbound : Option ℤ) (rules : List RouteRule) :
    listedLines action outbound rules = (listedEntries action outbound rules).map lineText := by
  have hfilter : (fun rule => (simple_rule_types action).any fun type =>
      isBucket type outbound rule) = fun rule => (bucketKey action outbound rule).isSome := by
    funext rule
    rw [Bool.eq_iff_iff, List.any_eq_true, Option.isSome_iff_exists]
    exact exists_congr fun type => bucketKey_eq_some.symm
  unfold listedLines listedEntries
  rw [hfilter, List.map_flatMap]
  exact List.flatMap_congr fun rule _ => ruleLines_eq rule

section Listing

variable {checks}
variable (stores : Stores) (action : SimpleAction) (outbound : Option ℤ)

/-- The lines that a rule is listed with when the empty rules are gone. -/
def leftEntries (rule : RouteRule) : List (LineKind × Text) :=
  if (isEmpty stores rule).1 = true then []
  else if (bucketKey action outbound rule).isSome then ruleEntries (isEmpty stores rule).2 else []

theorem bucketKey_isEmpty (rule : RouteRule) :
    bucketKey action outbound (isEmpty stores rule).2 = bucketKey action outbound rule :=
  bucketKey_congr (type_isEmpty stores rule) (outboundID_isEmpty stores rule)

theorem listedEntries_FilterEmptyRules (rules : List RouteRule) :
    listedEntries action outbound (FilterEmptyRules stores rules) =
      rules.flatMap (leftEntries stores action outbound) := by
  unfold listedEntries FilterEmptyRules
  induction rules with
  | nil => rfl
  | cons rule rules ih =>
    rw [List.filterMap_cons, List.flatMap_cons, ← ih]
    unfold leftEntries
    dsimp only
    cases (isEmpty stores rule).1 with
    | true => rfl
    | false =>
      rw [if_neg (by decide), if_neg (by decide)]
      dsimp only
      rw [List.filter_cons, bucketKey_isEmpty]
      split
      · rw [List.flatMap_cons]
      · rfl

variable {stores action outbound}

theorem isSimple_of_bucketKey {rule : RouteRule} {type : RuleType}
    (h : bucketKey action outbound rule = some type) : IsSimple rule := by
  obtain ⟨htype, hbucket⟩ := bucketKey_eq_some.mp h
  exact isSimple_of_mem_types ((isBucket_iff.mp hbucket).1 ▸ htype)

/-- A rule of the action that is not empty is listed with some line. -/
theorem leftEntries_eq_nil {rule : RouteRule} :
    leftEntries stores action outbound rule = [] ↔
      (bucketKey action outbound rule ≠ none → (isEmpty stores rule).1 = true) := by
  unfold leftEntries
  cases hkey : bucketKey action outbound rule with
  | none => simp
  | some type =>
    have hsimple := isSimple_of_bucketKey hkey
    obtain ⟨hsame, hempty⟩ := @isEmpty_simple stores rule hsimple
    split
    · rename_i h
      exact iff_of_true rfl fun _ => h
    · rename_i h
      rw [if_pos (by rfl), hsame]
      refine iff_of_false (fun hnil => h ?_) fun hnot => h (hnot (by simp))
      exact hempty.mpr fun kind _ => ruleEntries_eq_nil.mp hnil kind

/-! ## The rules with new lines -/

theorem values_resetRule (type : RuleType) (outbound : Option ℤ) (rule : RouteRule)
    (kind : LineKind) : (resetRule type outbound rule).values kind = [] := by
  cases kind <;> rfl

theorem values_simpleRule (type : RuleType) (outbound : Option ℤ) (kind : LineKind) :
    (simpleRule type outbound).values kind = [] := by
  cases kind <;> rfl

/-- The values of a kind among the lines, each once. -/
def valuesOf (es : List (LineKind × Text)) (kind : LineKind) : List Text :=
  ((es.filter fun e => e.1 = kind).map Prod.snd).foldl appendOnce []

theorem mem_valuesOf {es : List (LineKind × Text)} {kind : LineKind} {value : Text} :
    value ∈ valuesOf es kind ↔ (kind, value) ∈ es := by
  unfold valuesOf
  rw [mem_foldl_appendOnce, or_iff_right List.not_mem_nil, List.mem_map]
  constructor
  · rintro ⟨⟨k, v⟩, hmem, rfl⟩
    obtain ⟨hes, hkind⟩ := List.mem_filter.mp hmem
    obtain rfl : k = kind := of_decide_eq_true hkind
    exact hes
  · exact fun h => ⟨(kind, value), List.mem_filter.mpr ⟨h, by simp⟩, rfl⟩

theorem nodup_valuesOf (es : List (LineKind × Text)) (kind : LineKind) : (valuesOf es kind).Nodup :=
  nodup_foldl_appendOnce List.nodup_nil _

/-- The lines of a rule of the type that had none before. -/
theorem values_addAll_ofType {rule : RouteRule} (h : ∀ kind, rule.values kind = [])
    (type : RuleType) (es : List (LineKind × Text)) (kind : LineKind) :
    (rule.addAll (ofType action type es)).values kind =
      if kindType action kind = type then valuesOf es kind else [] := by
  rw [values_addAll, h]
  unfold valuesOf ofType
  rw [List.filter_filter]
  split
  · rename_i htype
    refine congrArg (fun l : List (LineKind × Text) => (l.map Prod.snd).foldl appendOnce []) ?_
    refine List.filter_congr fun e _ => ?_
    rw [Bool.eq_iff_iff, Bool.and_eq_true, decide_eq_true_eq, decide_eq_true_eq]
    exact and_iff_left_of_imp fun hkind => hkind ▸ htype
  · rename_i htype
    rw [List.filter_eq_nil_iff.mpr]
    · rfl
    · intro e _ hboth
      rw [Bool.and_eq_true, decide_eq_true_eq, decide_eq_true_eq] at hboth
      exact htype (hboth.1 ▸ hboth.2)

@[simp] theorem type_rewritten (es : List (LineKind × Text)) (type : RuleType) (rule : RouteRule) :
    (rewritten action outbound es type rule).type = type := type_addAll _ _

@[simp] theorem type_written (es : List (LineKind × Text)) (type : RuleType) :
    (written action outbound es type).type = type := type_addAll _ _

/-- A rule that holds the lines of its type among these, and no others. -/
def HoldsLines (action : SimpleAction) (es : List (LineKind × Text)) (rule : RouteRule) : Prop :=
  ∀ kind, rule.values kind = if kindType action kind = rule.type then valuesOf es kind else []

theorem holdsLines_rewritten (es : List (LineKind × Text)) (type : RuleType) (rule : RouteRule) :
    HoldsLines action es (rewritten action outbound es type rule) := by
  intro kind
  unfold rewritten
  rw [values_addAll_ofType (values_resetRule type outbound rule), type_addAll]
  rfl

theorem holdsLines_written (es : List (LineKind × Text)) (type : RuleType) :
    HoldsLines action es (written action outbound es type) := by
  intro kind
  unfold written
  rw [values_addAll_ofType (values_simpleRule type outbound), type_addAll]
  rfl

theorem HoldsLines.mem_ruleEntries {es : List (LineKind × Text)} {rule : RouteRule}
    (h : HoldsLines action es rule) {entry : LineKind × Text} :
    entry ∈ ruleEntries rule ↔ entry ∈ es ∧ kindType action entry.1 = rule.type := by
  rw [Routes.mem_ruleEntries, h]
  split
  · rename_i htype
    rw [mem_valuesOf, and_iff_left htype]
  · rename_i htype
    exact iff_of_false List.not_mem_nil fun hmem => htype hmem.2

theorem HoldsLines.nodup_ruleEntries {es : List (LineKind × Text)} {rule : RouteRule}
    (h : HoldsLines action es rule) : (ruleEntries rule).Nodup := by
  refine Routes.nodup_ruleEntries fun kind => ?_
  rw [h]
  split
  · exact nodup_valuesOf es kind
  · exact List.nodup_nil

/-- Such a rule is listed with all its lines, also where it is empty. -/
theorem HoldsLines.leftEntries_eq {es : List (LineKind × Text)} {rule : RouteRule}
    (h : HoldsLines action es rule) {type : RuleType}
    (hkey : bucketKey action outbound rule = some type) :
    leftEntries stores action outbound rule = ruleEntries rule := by
  obtain ⟨hsame, hempty⟩ := @isEmpty_simple stores rule (isSimple_of_bucketKey hkey)
  unfold leftEntries
  split
  · rename_i hnone
    refine (ruleEntries_eq_nil.mpr fun kind => ?_).symm
    by_cases htype : kindType action kind = rule.type
    · apply hempty.mp hnone kind
      rw [← htype, isSimpleAddress_kindType, Bool.not_not]
    · rw [h, if_neg htype]
  · rw [hkey, if_pos (by rfl), hsame]

/-- The rules that get the lines: the first of each type, and one for each type that had none. -/
def lineRules (action : SimpleAction) (outbound : Option ℤ) (es : List (LineKind × Text))
    (rules : List RouteRule) : List RouteRule :=
  (firsts (bucketKey action outbound) [] rules).map (fun e => rewritten action outbound es e.1 e.2) ++
    ((simple_rule_types action).filter fun type =>
      rules.all fun rule => bucketKey action outbound rule ≠ some type).map
        (written action outbound es)

/-- The rules that do not. -/
def otherRules (action : SimpleAction) (outbound : Option ℤ) (rules : List RouteRule) :
    List RouteRule :=
  others (bucketKey action outbound) [] rules

variable (action outbound) in
theorem firstsAndMade_perm (es : List (LineKind × Text)) (rules : List RouteRule) :
    (firstsAndMade (bucketKey action outbound) (rewritten action outbound es)
      (written action outbound es) (simple_rule_types action) rules).Perm
      (otherRules action outbound rules ++ lineRules action outbound es rules) := by
  unfold firstsAndMade otherRules lineRules
  rw [← List.append_assoc]
  exact (changeFirsts_perm _ [] rules).append_right _

theorem map_type_lineRules (es : List (LineKind × Text)) (rules : List RouteRule) :
    (lineRules action outbound es rules).map RouteRule.type =
      (firsts (bucketKey action outbound) [] rules).map Prod.fst ++
        (simple_rule_types action).filter fun type =>
          rules.all fun rule => bucketKey action outbound rule ≠ some type := by
  unfold lineRules
  rw [List.map_append, List.map_map, List.map_map]
  refine congrArg₂ (· ++ ·) (List.map_congr_left fun e _ => type_rewritten es e.1 e.2) ?_
  exact (List.map_congr_left fun type _ => type_written es type).trans (List.map_id _)

variable (action outbound) in
/-- Each type has one of these rules. -/
theorem nodup_type_lineRules (es : List (LineKind × Text)) (rules : List RouteRule) :
    ((lineRules action outbound es rules).map RouteRule.type).Nodup := by
  rw [map_type_lineRules]
  refine List.nodup_append.mpr ⟨nodup_firsts [] rules,
    (nodup_simple_rule_types action).filter _, ?_⟩
  intro a ha b hb
  rintro rfl
  obtain ⟨-, rule, hrule, hkey⟩ := mem_keys_firsts.mp ha
  exact of_decide_eq_true (List.all_eq_true.mp (List.mem_filter.mp hb).2 rule hrule) hkey

variable (outbound) in
theorem mem_type_lineRules (es : List (LineKind × Text)) (rules : List RouteRule) {type : RuleType}
    (h : type ∈ simple_rule_types action) :
    type ∈ (lineRules action outbound es rules).map RouteRule.type := by
  rw [map_type_lineRules, List.mem_append]
  by_cases hany : ∃ rule ∈ rules, bucketKey action outbound rule = some type
  · exact .inl (mem_keys_firsts.mpr ⟨List.not_mem_nil, hany⟩)
  · refine .inr (List.mem_filter.mpr ⟨h, List.all_eq_true.mpr fun rule hrule => ?_⟩)
    rw [decide_eq_true_eq]
    exact fun hkey => hany ⟨rule, hrule, hkey⟩

theorem lineRule_spec {es : List (LineKind × Text)} {rules : List RouteRule} {rule : RouteRule}
    (h : rule ∈ lineRules action outbound es rules) :
    HoldsLines action es rule ∧ bucketKey action outbound rule = some rule.type := by
  rcases List.mem_append.mp h with hfirst | hmade
  · obtain ⟨e, he, rfl⟩ := List.mem_map.mp hfirst
    refine ⟨holdsLines_rewritten es e.1 e.2, ?_⟩
    rw [bucketKey_rewritten es e.1 e.2 (mem_firsts he).1]
    exact congrArg some (type_rewritten es e.1 e.2).symm
  · obtain ⟨type, htype, rfl⟩ := List.mem_map.mp hmade
    refine ⟨holdsLines_written es type, ?_⟩
    rw [bucketKey_written outbound es type (List.mem_of_mem_filter htype)]
    exact congrArg some (type_written es type).symm

variable (action outbound) in
/-- **These rules hold each line once.** -/
theorem lineRules_entries (es : List (LineKind × Text)) (rules : List RouteRule) :
    ((lineRules action outbound es rules).flatMap ruleEntries).Nodup ∧
      ∀ entry, entry ∈ (lineRules action outbound es rules).flatMap ruleEntries ↔ entry ∈ es := by
  constructor
  · refine List.nodup_flatMap.mpr
      ⟨fun rule hrule => (lineRule_spec hrule).1.nodup_ruleEntries, ?_⟩
    have hpairwise := List.pairwise_map.mp (nodup_type_lineRules action outbound es rules)
    refine hpairwise.imp_of_mem fun {a b} ha hb hab => ?_
    intro entry hentry hentry'
    have htype := ((lineRule_spec ha).1.mem_ruleEntries.mp hentry).2
    have htype' := ((lineRule_spec hb).1.mem_ruleEntries.mp hentry').2
    exact hab (htype.symm.trans htype')
  · intro entry
    rw [List.mem_flatMap]
    constructor
    · rintro ⟨rule, hrule, hentry⟩
      exact ((lineRule_spec hrule).1.mem_ruleEntries.mp hentry).1
    · intro hentry
      obtain ⟨rule, hrule, htype⟩ := List.mem_map.mp
        (mem_type_lineRules outbound es rules (kindType_mem action entry.1))
      exact ⟨rule, hrule, (lineRule_spec hrule).1.mem_ruleEntries.mpr ⟨hentry, htype.symm⟩⟩

/-! ## When the lines are those of the text -/

/-- The rules of the action that keep their lines are empty. -/
def OneRuleEach (stores : Stores) (action : SimpleAction) (outbound : Option ℤ)
    (rules : List RouteRule) : Prop :=
  ∀ rule ∈ otherRules action outbound rules, bucketKey action outbound rule ≠ none →
    (isEmpty stores rule).1 = true

/-- No custom rule is rewritten by the test for emptiness. -/
def NoneRewritten (stores : Stores) (rules : List RouteRule) : Prop :=
  ∀ rule ∈ rules, rule.type = .custom → (isEmpty stores rule).1 = false → ¬ Rewritten rule

/-- The rules of an update with these lines. -/
def updatedRules (stores : Stores) (action : SimpleAction) (outbound : Option ℤ)
    (es : List (LineKind × Text)) (rules : List RouteRule) : List RouteRule :=
  FilterEmptyRules stores (firstsAndMade (bucketKey action outbound)
    (rewritten action outbound es) (written action outbound es) (simple_rule_types action) rules)

variable (stores action outbound) in
theorem listedEntries_updatedRules (es : List (LineKind × Text)) (rules : List RouteRule) :
    (listedEntries action outbound (updatedRules stores action outbound es rules)).Perm
      ((otherRules action outbound rules).flatMap (leftEntries stores action outbound) ++
        (lineRules action outbound es rules).flatMap ruleEntries) := by
  have hperm := (firstsAndMade_perm action outbound es rules).flatMap_right
    (leftEntries stores action outbound)
  have hlines : (lineRules action outbound es rules).flatMap (leftEntries stores action outbound) =
      (lineRules action outbound es rules).flatMap ruleEntries :=
    List.flatMap_congr fun rule hrule =>
      (lineRule_spec hrule).1.leftEntries_eq (lineRule_spec hrule).2
  unfold updatedRules
  rw [listedEntries_FilterEmptyRules]
  rwa [List.flatMap_append, hlines] at hperm

variable (stores action outbound) in
/-- **The lines listed are those of the text, each once, just when no other rule has lines.** -/
theorem listed_iff (es : List (LineKind × Text)) (rules : List RouteRule) :
    ((listedEntries action outbound (updatedRules stores action outbound es rules)).Nodup ∧
      ∀ entry, entry ∈ listedEntries action outbound (updatedRules stores action outbound es rules) ↔
        entry ∈ es) ↔
    OneRuleEach stores action outbound rules := by
  have hperm := listedEntries_updatedRules stores action outbound es rules
  obtain ⟨hnodup, hmem⟩ := lineRules_entries action outbound es rules
  have hnone : (otherRules action outbound rules).flatMap (leftEntries stores action outbound) = [] ↔
      OneRuleEach stores action outbound rules := by
    rw [List.flatMap_eq_nil_iff]
    exact forall₂_congr fun rule _ => leftEntries_eq_nil
  rw [← hnone, hperm.nodup_iff]
  constructor
  · rintro ⟨hall, hlines⟩
    refine List.eq_nil_iff_forall_not_mem.mpr fun entry hentry => ?_
    have hes := (hlines entry).mp (hperm.mem_iff.mpr (List.mem_append_left _ hentry))
    exact (List.nodup_append.mp hall).2.2 entry hentry entry ((hmem entry).mpr hes) rfl
  · intro hnil
    rw [hnil, List.nil_append]
    refine ⟨hnodup, fun entry => ?_⟩
    rw [hperm.mem_iff, hnil, List.nil_append]
    exact hmem entry

theorem FilterEmptyRules_sublist {xs ys : List RouteRule} (h : xs.Sublist ys) :
    (FilterEmptyRules stores xs).Sublist (FilterEmptyRules stores ys) :=
  h.filterMap _

theorem FilterEmptyRules_eq_filter {rules : List RouteRule}
    (h : ∀ rule ∈ rules, (isEmpty stores rule).1 = false → (isEmpty stores rule).2 = rule) :
    FilterEmptyRules stores rules = rules.filter fun rule => !(isEmpty stores rule).1 := by
  unfold FilterEmptyRules
  induction rules with
  | nil => rfl
  | cons rule rules ih =>
    have hlater := ih fun r hr => h r (List.mem_cons_of_mem rule hr)
    rw [List.filterMap_cons, List.filter_cons]
    dsimp only
    cases hempty : (isEmpty stores rule).1 with
    | true => exact hlater
    | false =>
      rw [h rule List.mem_cons_self hempty]
      exact congrArg _ hlater

theorem isEmpty_left_of_type {rule : RouteRule} (h : rule.type ≠ .custom) :
    (isEmpty stores rule).2 = rule := by
  unfold isEmpty
  rw [if_pos h]
  split
  · rfl
  · split <;> rfl

/-- A custom rule that was rewritten is none of the rules left. -/
theorem notMem_FilterEmptyRules {rules : List RouteRule} {rule : RouteRule}
    (hcustom : rule.type = .custom) (hrewritten : Rewritten rule) :
    rule ∉ FilterEmptyRules stores rules := by
  intro hmem
  obtain ⟨old, -, -, hleft⟩ := mem_FilterEmptyRules.mp hmem
  have hold : old.type = .custom := by
    rw [← type_isEmpty stores, hleft]
    exact hcustom
  have hsecond : (isEmpty stores rule).2 = rule := by
    rw [← hleft, isEmpty_isEmpty]
  have haction : (isEmpty stores rule).2 = { rule with action := effective_action rule } := by
    unfold isEmpty
    rw [if_neg (by simp [hcustom])]
    unfold get_rule_json
    rw [if_neg (by simp [hcustom])]
  rw [haction] at hsecond
  exact effective_action_ne hrewritten.2.1 hrewritten.2.2 (congrArg RouteRule.action hsecond)

variable (stores action outbound) in
/-- **The other rules are left just when no custom rule is rewritten.** -/
theorem others_iff (es : List (LineKind × Text)) (rules : List RouteRule) :
    ((otherRules action outbound rules).filter fun rule => !(isEmpty stores rule).1).Sublist
        (updatedRules stores action outbound es rules) ↔ NoneRewritten stores rules := by
  constructor
  · intro hsub rule hrule hcustom hempty hrewritten
    have hkey : bucketKey action outbound rule = none := by
      cases hkey : bucketKey action outbound rule with
      | none => rfl
      | some type => exact absurd hcustom (isSimple_of_bucketKey hkey).1
    have hother : rule ∈ otherRules action outbound rules := mem_others_of_none hrule hkey
    refine notMem_FilterEmptyRules hcustom hrewritten (hsub.subset ?_)
    exact List.mem_filter.mpr ⟨hother, by simp [hempty]⟩
  · intro hnone
    have hkept : ∀ rule ∈ otherRules action outbound rules, (isEmpty stores rule).1 = false →
        (isEmpty stores rule).2 = rule := by
      intro rule hrule hempty
      by_cases hcustom : rule.type = .custom
      · exact isEmpty_left (hnone rule (mem_of_mem_others hrule) hcustom hempty)
      · exact isEmpty_left_of_type hcustom
    rw [← FilterEmptyRules_eq_filter hkept]
    refine FilterEmptyRules_sublist ?_
    exact (others_sublist _ [] rules).trans (List.sublist_append_left _ _)

/-! ## A second update -/

/-- Of the items of a list, one alone has something. -/
theorem flatMap_eq_of_nodup {α β κ : Type*} {g : α → κ} {f : α → List β} {xs : List α}
    (hnodup : (xs.map g).Nodup) {x : α} (hx : x ∈ xs) (hf : ∀ y ∈ xs, g y ≠ g x → f y = []) :
    xs.flatMap f = f x := by
  obtain ⟨before, after, rfl⟩ := List.append_of_mem hx
  have hkeys := List.pairwise_map.mp hnodup
  obtain ⟨-, hafter, hbefore⟩ := List.pairwise_append.mp hkeys
  have hempty : before.flatMap f = [] := List.flatMap_eq_nil_iff.mpr fun y hy =>
    hf y (List.mem_append_left _ hy) (hbefore y hy x List.mem_cons_self)
  have hempty' : after.flatMap f = [] := List.flatMap_eq_nil_iff.mpr fun y hy =>
    hf y (List.mem_append_right _ (List.mem_cons_of_mem x hy))
      (Ne.symm ((List.pairwise_cons.mp hafter).1 y hy))
  rw [List.flatMap_append, List.flatMap_cons, hempty, hempty', List.nil_append, List.append_nil]

theorem FilterEmptyRules_idem (rules : List RouteRule) :
    FilterEmptyRules stores (FilterEmptyRules stores rules) = FilterEmptyRules stores rules := by
  unfold FilterEmptyRules
  rw [List.filterMap_filterMap]
  refine List.filterMap_congr fun rule _ => ?_
  dsimp only
  cases hempty : (isEmpty stores rule).1 with
  | true => rfl
  | false =>
    rw [if_neg (by decide), Option.bind_some, isEmpty_isEmpty, hempty]
    rfl

theorem FilterEmptyRules_append (xs ys : List RouteRule) :
    FilterEmptyRules stores (xs ++ ys) = FilterEmptyRules stores xs ++ FilterEmptyRules stores ys :=
  List.filterMap_append

variable (stores action outbound) in
/-- The rules of the action after an update are those that got the lines. -/
theorem bucketRules_updated {rules : List RouteRule} (hone : OneRuleEach stores action outbound rules)
    (es : List (LineKind × Text)) :
    (((updatedRules stores action outbound es rules).filter fun rule =>
        (bucketKey action outbound rule).isSome).map RouteRule.type).Nodup ∧
      ∀ rule ∈ updatedRules stores action outbound es rules,
        bucketKey action outbound rule ≠ none → rule ∈ lineRules action outbound es rules := by
  have hperm : (updatedRules stores action outbound es rules).Perm
      (FilterEmptyRules stores (otherRules action outbound rules) ++
        FilterEmptyRules stores (lineRules action outbound es rules)) := by
    rw [← FilterEmptyRules_append]
    exact (firstsAndMade_perm action outbound es rules).filterMap _
  have hothers : ∀ rule ∈ FilterEmptyRules stores (otherRules action outbound rules),
      bucketKey action outbound rule = none := by
    intro rule hrule
    obtain ⟨old, hold, hempty, rfl⟩ := mem_FilterEmptyRules.mp hrule
    rw [bucketKey_isEmpty]
    by_contra hkey
    rw [hone old hold hkey] at hempty
    cases hempty
  have hlines : FilterEmptyRules stores (lineRules action outbound es rules) =
      (lineRules action outbound es rules).filter fun rule => !(isEmpty stores rule).1 :=
    FilterEmptyRules_eq_filter fun rule hrule _ =>
      isEmpty_left_of_type (isSimple_of_bucketKey (lineRule_spec hrule).2).1
  constructor
  · have hfilter := (hperm.filter fun rule => (bucketKey action outbound rule).isSome).map
      RouteRule.type
    rw [hfilter.nodup_iff, List.filter_append, List.filter_eq_nil_iff.mpr, List.nil_append, hlines]
    · exact (nodup_type_lineRules action outbound es rules).sublist
        ((List.filter_sublist.trans List.filter_sublist).map _)
    · intro rule hrule
      rw [hothers rule hrule]
      decide
  · intro rule hrule hkey
    rcases List.mem_append.mp (hperm.mem_iff.mp hrule) with hother | hline
    · exact absurd (hothers rule hother) hkey
    · rw [hlines] at hline
      exact List.mem_of_mem_filter hline

/-- A rule that got lines is what its reset and these lines make. -/
theorem eraseLines_lineRule {es : List (LineKind × Text)} {rules : List RouteRule} {rule : RouteRule}
    (h : rule ∈ lineRules action outbound es rules) :
    (resetRule rule.type outbound rule).eraseLines = rule.eraseLines := by
  rcases List.mem_append.mp h with hfirst | hmade
  · obtain ⟨e, -, rfl⟩ := List.mem_map.mp hfirst
    unfold rewritten
    rw [eraseLines_addAll, type_addAll]
    unfold resetRule
    rw [disabled_addAll]
    rfl
  · obtain ⟨type, -, rfl⟩ := List.mem_map.mp hmade
    unfold written
    rw [eraseLines_addAll, type_addAll]
    unfold resetRule
    rw [disabled_addAll]
    rfl

variable (stores action outbound) in
/-- **An update with the lines that are listed changes nothing.** -/
theorem updatedRules_again {rules : List RouteRule} (hone : OneRuleEach stores action outbound rules)
    (es : List (LineKind × Text)) :
    let updated := updatedRules stores action outbound es rules
    updatedRules stores action outbound (listedEntries action outbound updated) updated = updated := by
  intro updated
  obtain ⟨hnodup, hline⟩ := bucketRules_updated stores action outbound hone es
  have hspec : ∀ rule ∈ updated, ∀ type, bucketKey action outbound rule = some type →
      rule ∈ lineRules action outbound es rules ∧ rule.type = type := by
    intro rule hrule type hkey
    have hmem := hline rule hrule (by rw [hkey]; simp)
    refine ⟨hmem, ?_⟩
    rw [(lineRule_spec hmem).2] at hkey
    exact Option.some_inj.mp hkey
  -- the lines of a kind are those of the one rule of its type
  have hvalues : ∀ rule ∈ updated, ∀ type, bucketKey action outbound rule = some type →
      ∀ kind, kindType action kind = type →
        valuesOf (listedEntries action outbound updated) kind = rule.values kind := by
    intro rule hrule type hkey kind hkind
    obtain ⟨hmem, htype⟩ := hspec rule hrule type hkey
    have hin : rule ∈ updated.filter fun rule => (bucketKey action outbound rule).isSome :=
      List.mem_filter.mpr ⟨hrule, by rw [hkey]; rfl⟩
    have hall : ((listedEntries action outbound updated).filter fun e => e.1 = kind).map Prod.snd =
        rule.values kind := by
      unfold listedEntries
      rw [List.filter_flatMap, List.map_flatMap,
        List.flatMap_congr fun r _ => filter_ruleEntries r kind]
      refine flatMap_eq_of_nodup hnodup hin fun other hother hne => ?_
      obtain ⟨hmem', hsome⟩ := List.mem_filter.mp hother
      obtain ⟨type', hkey'⟩ := Option.isSome_iff_exists.mp hsome
      obtain ⟨hother', htype'⟩ := hspec other hmem' type' hkey'
      rw [(lineRule_spec hother').1 kind, if_neg]
      rw [hkind, ← htype]
      exact Ne.symm hne
    unfold valuesOf
    rw [hall, foldl_appendOnce_eq, List.nil_append]
    rw [List.nil_append, (lineRule_spec hmem).1 kind]
    split
    · exact nodup_valuesOf es kind
    · exact List.nodup_nil
  have hfirsts : ∀ e ∈ firsts (bucketKey action outbound) [] updated,
      rewritten action outbound (listedEntries action outbound updated) e.1 e.2 = e.2 := by
    intro e he
    obtain ⟨hkey, hrule, -⟩ := mem_firsts he
    obtain ⟨hmem, htype⟩ := hspec e.2 hrule e.1 hkey
    refine RouteRule.ext_lines ?_ fun kind => ?_
    · unfold rewritten
      rw [eraseLines_addAll, ← htype]
      exact eraseLines_lineRule hmem
    · unfold rewritten
      rw [values_addAll_ofType (values_resetRule e.1 outbound e.2)]
      split
      · rename_i hkind
        exact hvalues e.2 hrule e.1 hkey kind hkind
      · rename_i hkind
        rw [(lineRule_spec hmem).1 kind, if_neg]
        rwa [htype]
  have hmade : FilterEmptyRules stores (((simple_rule_types action).filter fun type =>
      updated.all fun rule => bucketKey action outbound rule ≠ some type).map
        (written action outbound (listedEntries action outbound updated))) = [] := by
    refine List.eq_nil_iff_forall_not_mem.mpr fun rule hrule => ?_
    obtain ⟨old, hold, hempty, -⟩ := mem_FilterEmptyRules.mp hrule
    obtain ⟨type, htype, rfl⟩ := List.mem_map.mp hold
    obtain ⟨hin, hnone⟩ := List.mem_filter.mp htype
    have hsimple := isSimple_of_bucketKey
      (bucketKey_written outbound (listedEntries action outbound updated) type hin)
    have hall : (isEmpty stores
        (written action outbound (listedEntries action outbound updated) type)).1 = true := by
      refine (isEmpty_simple hsimple).2.mpr fun kind _ => ?_
      rw [holdsLines_written, type_written]
      split
      · rename_i hkind
        refine List.eq_nil_iff_forall_not_mem.mpr fun value hvalue => ?_
        obtain ⟨other, hother, hentry⟩ := List.mem_flatMap.mp (mem_valuesOf.mp hvalue)
        obtain ⟨hmem, hsome⟩ := List.mem_filter.mp hother
        obtain ⟨type', hkey'⟩ := Option.isSome_iff_exists.mp hsome
        obtain ⟨hline', htype'⟩ := hspec other hmem type' hkey'
        have hown := ((lineRule_spec hline').1.mem_ruleEntries.mp hentry).2
        have hsame : type' = type := htype'.symm.trans (hown.symm.trans hkind)
        exact of_decide_eq_true (List.all_eq_true.mp hnone other hmem) (hsame ▸ hkey')
      · rfl
    rw [hall] at hempty
    cases hempty
  unfold updatedRules firstsAndMade
  rw [changeFirsts_eq_self hfirsts, FilterEmptyRules_append, hmade, List.append_nil]
  exact FilterEmptyRules_idem _

end Listing

/-! ## The guarantee -/

/-- The lines of a text that are accepted, in the form in which they are listed. -/
def acceptedLines (content : Text) : List Text := (entries checks content).map lineText

/-- What an update should come to. -/
structure LinesReplaced (stores : Stores) (content : Text) (action : SimpleAction)
    (outbound : Option ℤ) (rules updated : List RouteRule) : Prop where
  /-- No line is listed twice. -/
  once : (listedLines action outbound updated).Nodup
  /-- The accepted lines are listed, and no others. -/
  lines : ∀ line, line ∈ listedLines action outbound updated ↔ line ∈ acceptedLines checks content
  /-- Every other rule that is not empty is left, in its place. -/
  others : ((otherRules action outbound rules).filter fun rule =>
    !(isEmpty stores rule).1).Sublist updated
  /-- The listed text changes nothing. -/
  again : (UpdateSimpleRules checks stores (GetSimpleRules action outbound updated) action outbound
    updated).2 = updated

theorem canonical_of_mem_entries {content : Text} {entry : LineKind × Text}
    (h : entry ∈ entries checks content) : Canonical checks entry := by
  obtain ⟨item, hitem, hentry⟩ := List.mem_filterMap.mp h
  refine canonical_of_lineEntry checks (trimSpace_trimSpace item) (fun hmem => ?_) hentry
  exact notMem_of_mem_splitOn hitem ((trimSpace_isInfix item).subset hmem)

/-- **Listed lines read back.** -/
theorem entries_listed {es : List (LineKind × Text)} (h : ∀ e ∈ es, Canonical checks e) :
    entries checks ((es.map lineText).flatMap fun line => line ++ ['\n']) = es := by
  induction es with
  | nil => rfl
  | cons e es ih =>
    have hfirst := h e List.mem_cons_self
    unfold entries at ih ⊢
    rw [List.map_cons, List.flatMap_cons, List.append_assoc, List.singleton_append,
      List.splitOn_append_cons_self_of_not_mem hfirst.newline_lineText, List.filterMap_cons,
      hfirst.trimSpace_lineText, hfirst.lineEntry_lineText,
      ih fun e' he' => h e' (List.mem_cons_of_mem e he')]

/-- **An update replaces the lines of an action just when no other rule of the action has lines**
and the test for emptiness rewrites no custom rule. -/
theorem UpdateSimpleRules_linesReplaced (stores : Stores) (content : Text) (action : SimpleAction)
    (outbound : Option ℤ) (rules : List RouteRule) :
    LinesReplaced checks stores content action outbound rules
        (UpdateSimpleRules checks stores content action outbound rules).2 ↔
      OneRuleEach stores action outbound rules ∧ NoneRewritten stores rules := by
  have hlisted := listed_iff stores action outbound (entries checks content) rules
  have hothers := others_iff stores action outbound (entries checks content) rules
  have hlines : ∀ updated : List RouteRule,
      (∀ line, line ∈ listedLines action outbound updated ↔ line ∈ acceptedLines checks content) ↔
        ∀ entry, entry ∈ listedEntries action outbound updated ↔ entry ∈ entries checks content := by
    intro updated
    rw [listedLines_eq, acceptedLines]
    constructor
    · intro h entry
      rw [← List.mem_map_of_injective lineText_injective, h,
        List.mem_map_of_injective lineText_injective]
    · intro h line
      simp only [List.mem_map, h]
  rw [UpdateSimpleRules_eq]
  constructor
  · intro h
    refine ⟨hlisted.mp ⟨?_, (hlines _).mp h.lines⟩, hothers.mp h.others⟩
    have honce := h.once
    rw [listedLines_eq] at honce
    exact honce.of_map _
  · rintro ⟨hone, hnone⟩
    obtain ⟨hnodup, hmem⟩ := hlisted.mpr hone
    refine ⟨?_, (hlines _).mpr hmem, hothers.mpr hnone, ?_⟩
    · rw [listedLines_eq]
      exact hnodup.map lineText_injective
    · have hread : entries checks (GetSimpleRules action outbound
          (updatedRules stores action outbound (entries checks content) rules)) =
          listedEntries action outbound
            (updatedRules stores action outbound (entries checks content) rules) := by
        unfold GetSimpleRules
        rw [listedLines_eq]
        exact entries_listed checks fun e he => canonical_of_mem_entries checks ((hmem e).mp he)
      rw [UpdateSimpleRules_eq]
      have hagain := updatedRules_again stores action outbound hone (entries checks content)
      dsimp only at hagain
      rw [← hread] at hagain
      exact hagain

/-- Two imported proxy rules with addresses. -/
def twoProxyRules : List RouteRule :=
  [{ type := .simpleAddressProxy, domain := ["a.org".toList] },
    { type := .simpleAddressProxy, domain := ["b.org".toList] }]

/-- The lines of the second rule stay. -/
theorem secondRule_keepsLines :
    ¬ LinesReplaced LineChecks.lenient ⟨fun _ => none, id⟩ "domain:c.org".toList .proxy none
      twoProxyRules (UpdateSimpleRules LineChecks.lenient ⟨fun _ => none, id⟩
        "domain:c.org".toList .proxy none twoProxyRules).2 := by
  intro h
  have hlisted : "domain:b.org".toList ∈ listedLines .proxy none
      (UpdateSimpleRules LineChecks.lenient ⟨fun _ => none, id⟩ "domain:c.org".toList .proxy none
        twoProxyRules).2 := by
    decide +kernel
  have haccepted := (h.lines _).mp hlisted
  revert haccepted
  decide +kernel

end Throned.Routes
