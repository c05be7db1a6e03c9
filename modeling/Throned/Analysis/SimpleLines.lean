import Throned.Analysis.RuleRendering
import Throned.Model.SimpleRules

/-!
# Lines and the lists they go to

A line names a list of a rule and a value.  Adding it asks the same of every rule, so what a line
is can be said without one; a value that was added is read back from the line it is listed as.
-/

set_option autoImplicit false

namespace Throned.Routes

open Throned.Library

/-! ## The lists of a rule -/

@[simp] theorem values_setValues_self (rule : RouteRule) (kind : LineKind) (values : List Text) :
    (rule.setValues kind values).values kind = values := by
  cases kind <;> rfl

theorem values_setValues_of_ne {kind other : LineKind} (h : other ≠ kind) (rule : RouteRule)
    (values : List Text) : (rule.setValues kind values).values other = rule.values other := by
  cases kind <;> cases other <;> first | rfl | exact absurd rfl h

@[simp] theorem type_setValues (rule : RouteRule) (kind : LineKind) (values : List Text) :
    (rule.setValues kind values).type = rule.type := by
  cases kind <;> rfl

@[simp] theorem outboundID_setValues (rule : RouteRule) (kind : LineKind) (values : List Text) :
    (rule.setValues kind values).outboundID = rule.outboundID := by
  cases kind <;> rfl

@[simp] theorem disabled_setValues (rule : RouteRule) (kind : LineKind) (values : List Text) :
    (rule.setValues kind values).disabled = rule.disabled := by
  cases kind <;> rfl

/-- The rule without its lines. -/
def RouteRule.eraseLines (rule : RouteRule) : RouteRule :=
  LineKind.all.foldl (fun rule kind => rule.setValues kind []) rule

theorem eraseLines_setValues (rule : RouteRule) (kind : LineKind) (values : List Text) :
    (rule.setValues kind values).eraseLines = rule.eraseLines := by
  cases kind <;> rfl

/-- A rule is its lines and the rest of it. -/
theorem RouteRule.ext_lines {a b : RouteRule} (hrest : a.eraseLines = b.eraseLines)
    (hvalues : ∀ kind, a.values kind = b.values kind) : a = b := by
  have hdomain := hvalues .domain
  have hsuffix := hvalues .domain_suffix
  have hkeyword := hvalues .domain_keyword
  have hregex := hvalues .domain_regex
  have hset := hvalues .rule_set
  have hip := hvalues .ip_cidr
  have hname := hvalues .process_name
  have hpath := hvalues .process_path
  obtain ⟨⟩ := a
  obtain ⟨⟩ := b
  simp only [RouteRule.values] at hdomain hsuffix hkeyword hregex hset hip hname hpath
  simp only [RouteRule.eraseLines, LineKind.all, List.foldl_cons, List.foldl_nil,
    RouteRule.setValues, RouteRule.mk.injEq] at hrest
  simp only [RouteRule.mk.injEq]
  tauto

@[simp] theorem type_addValue (rule : RouteRule) (kind : LineKind) (value : Text) :
    (rule.addValue kind value).type = rule.type := type_setValues _ _ _

@[simp] theorem outboundID_addValue (rule : RouteRule) (kind : LineKind) (value : Text) :
    (rule.addValue kind value).outboundID = rule.outboundID := outboundID_setValues _ _ _

@[simp] theorem disabled_addValue (rule : RouteRule) (kind : LineKind) (value : Text) :
    (rule.addValue kind value).disabled = rule.disabled := disabled_setValues _ _ _

theorem values_addValue (rule : RouteRule) (kind other : LineKind) (value : Text) :
    (rule.addValue kind value).values other =
      if other = kind then appendOnce (rule.values kind) value else rule.values other := by
  split
  · rename_i heq
    subst heq
    exact values_setValues_self _ _ _
  · rename_i hne
    exact values_setValues_of_ne hne _ _

theorem mem_appendOnce {values : List Text} {value v : Text} :
    v ∈ appendOnce values value ↔ v ∈ values ∨ v = value := by
  unfold appendOnce
  split
  · rename_i hmem
    exact ⟨.inl, fun h => h.elim id fun heq => heq ▸ hmem⟩
  · rw [List.mem_append, List.mem_singleton]

theorem nodup_appendOnce {values : List Text} (h : values.Nodup) (value : Text) :
    (appendOnce values value).Nodup := by
  unfold appendOnce
  split
  · exact h
  · rename_i hnew
    refine List.nodup_append.mpr ⟨h, List.nodup_singleton value, ?_⟩
    intro a ha b hb
    rw [List.mem_singleton.mp hb]
    rintro rfl
    exact hnew ha

/-! ## What a line names -/

section Lines

variable (checks : LineChecks)

def passes (content : Text) : Bool :=
  let issue := CheckSimpleRule checks content
  ¬ (issue.isError ∧ issue.message ≠ [])

/-- The list and the value of a line that is accepted. -/
def lineEntry (raw : Text) : Option (LineKind × Text) :=
  (simple_rule_values checks raw).filter fun _ => passes checks raw

/-- The type of the rule for the lines of a kind. -/
def kindType (action : SimpleAction) : LineKind → RuleType
  | .process_name => processNameType action
  | .process_path => processPathType action
  | _ => addressType action

theorem kindType_mem (action : SimpleAction) (kind : LineKind) :
    kindType action kind ∈ simple_rule_types action := by
  cases kind <;> simp [kindType, simple_rule_types]

theorem isSimpleAddress_kindType (action : SimpleAction) (kind : LineKind) :
    isSimpleAddress (kindType action kind) = !isProcess kind := by
  cases kind <;> cases action <;> rfl

theorem kindType_ne_custom (action : SimpleAction) (kind : LineKind) :
    kindType action kind ≠ .custom := by
  cases kind <;> cases action <;> decide

theorem ofPrefix_eq_some {text : Text} {kind : LineKind} :
    LineKind.ofPrefix text = some kind ↔ text = kind.prefixText := by
  constructor
  · intro h
    have := List.find?_some h
    exact (of_decide_eq_true this).symm
  · rintro rfl
    cases kind <;> decide

theorem prefix_of_trimSpace_left {raw left right : Text} (htrim : trimSpace raw = raw)
    (hcut : cut ':' raw = some (left, right)) (hleft : trimSpace left ≠ []) :
    trimSpace left <+: raw := by
  have hraw := eq_append_of_cut hcut
  have hne : left ≠ [] := by
    rintro rfl
    exact hleft rfl
  have hdrop : left.dropWhile isSpace = left := by
    cases left with
    | nil => rfl
    | cons c rest =>
      have hc : isSpace c = false := by
        apply isSpace_head_trimSpace (s := raw)
        rw [htrim, hraw.1]
        rfl
      rw [List.dropWhile_cons_of_neg (by simp [hc])]
  have hstarts : trimSpace left <+: left := by
    unfold trimSpace
    rw [hdrop]
    exact List.rdropWhile_prefix isSpace left
  rw [hraw.1]
  exact hstarts.trans (List.prefix_append _ _)

/-- A line that starts with the name of a list goes to a rule of that list. -/
theorem get_rule_type_of_prefix {raw : Text} {kind : LineKind} (h : kind.prefixText <+: raw)
    (action : SimpleAction) : get_rule_type raw action = kindType action kind := by
  obtain ⟨rest, rfl⟩ := h
  have hself : kind.prefixText.isPrefixOf (kind.prefixText ++ rest) = true :=
    List.isPrefixOf_iff_prefix.mpr (List.prefix_append _ _)
  unfold get_rule_type
  by_cases hkind : isProcess kind = true
  · have haddress : (addressPrefixes.any fun p => p.isPrefixOf (kind.prefixText ++ rest)) = false := by
      cases kind <;> first | rfl | exact absurd hkind (by decide)
    rw [if_neg (by rw [haddress]; decide)]
    cases kind <;> first | exact absurd hkind (by decide) | skip
    · exact if_pos hself
    · have hname : "processName".toList.isPrefixOf (LineKind.process_path.prefixText ++ rest) =
          false := rfl
      rw [if_neg (Bool.eq_false_iff.mp hname)]
      exact if_pos hself
  · have haddress : (addressPrefixes.any fun p => p.isPrefixOf (kind.prefixText ++ rest)) = true := by
      refine List.any_eq_true.mpr ⟨kind.prefixText, ?_, hself⟩
      cases kind <;> first | decide | exact absurd rfl hkind
    rw [if_pos haddress]
    cases kind <;> first | rfl | exact absurd rfl hkind

theorem simple_rule_values_eq_some {raw : Text} {kind : LineKind} {value : Text} :
    simple_rule_values checks raw = some (kind, value) ↔
      ∃ left right, cut ':' raw = some (left, right) ∧ trimSpace left = kind.prefixText ∧
        trimSpace right ≠ [] ∧ value = kind.stored checks (trimSpace right) := by
  unfold simple_rule_values
  cases hcut : cut ':' raw with
  | none => simp
  | some halves =>
    obtain ⟨left, right⟩ := halves
    dsimp only
    split
    · rename_i hempty
      simp [hempty]
    · rename_i hvalue
      rw [Option.map_eq_some_iff]
      constructor
      · rintro ⟨kind', hkind, heq⟩
        obtain ⟨rfl, rfl⟩ := Prod.mk.inj heq
        exact ⟨left, right, rfl, ofPrefix_eq_some.mp hkind, hvalue, rfl⟩
      · rintro ⟨left', right', heq, hleft, -, rfl⟩
        obtain ⟨rfl, rfl⟩ := Prod.mk.inj (Option.some_inj.mp heq)
        exact ⟨kind, ofPrefix_eq_some.mpr hleft, rfl⟩

/-- The type of the rule a line goes to is that of the list it names. -/
theorem get_rule_type_of_values {raw : Text} (htrim : trimSpace raw = raw) {kind : LineKind}
    {value : Text} (h : simple_rule_values checks raw = some (kind, value)) (action : SimpleAction) :
    get_rule_type raw action = kindType action kind := by
  obtain ⟨left, right, hcut, hleft, -⟩ := (simple_rule_values_eq_some checks).mp h
  apply get_rule_type_of_prefix
  have hne : trimSpace left ≠ [] := by
    rw [hleft]
    cases kind <;> decide
  rw [← hleft]
  exact prefix_of_trimSpace_left htrim hcut hne

theorem SplitRuleLine_of_values {raw : Text} (htrim : trimSpace raw = raw) {kind : LineKind}
    {left right : Text} (hcut : cut ':' raw = some (left, right))
    (hleft : trimSpace left = kind.prefixText) :
    SplitRuleLine raw = (kind.prefixText, trimSpace right) := by
  unfold SplitRuleLine
  rw [htrim, hcut]
  dsimp only
  rw [if_neg, hleft]
  rintro rfl
  revert hleft
  cases kind <;> exact fun h => absurd h (by decide)

/-- **A line that is accepted is added to any rule of its type.** -/
theorem add_simple_rule_ok {raw : Text} (htrim : trimSpace raw = raw) {kind : LineKind}
    {value : Text} (h : lineEntry checks raw = some (kind, value)) (action : SimpleAction)
    (rule : RouteRule) :
    add_simple_rule checks raw rule (kindType action kind) = .ok (rule.addValue kind value) := by
  obtain ⟨hvalues, hpasses⟩ := Option.filter_eq_some_iff.mp h
  obtain ⟨left, right, hcut, hleft, hright, rfl⟩ := (simple_rule_values_eq_some checks).mp hvalues
  have hsplit := SplitRuleLine_of_values htrim hcut hleft
  have hkind : LineKind.ofPrefix kind.prefixText = some kind := ofPrefix_eq_some.mpr rfl
  have hname : kind.prefixText ≠ [] := by cases kind <;> decide
  have hok : ¬ ((CheckSimpleRule checks raw).isError = true ∧
      (CheckSimpleRule checks raw).message ≠ []) := of_decide_eq_true hpasses
  unfold add_simple_rule
  dsimp only
  rw [if_neg hok, isSimpleAddress_kindType]
  cases hprocess : isProcess kind with
  | false =>
    unfold add_simple_address_rule
    rw [if_pos (by decide), hsplit]
    dsimp only
    rw [if_neg (by simp [hname, hright]), hkind]
    dsimp only
    rw [if_neg (by simp [hprocess])]
  | true =>
    have hstored : kind.stored checks (trimSpace right) = trimSpace right := by
      unfold LineKind.stored
      rw [if_neg]
      revert hprocess
      cases kind <;> decide
    unfold add_simple_process_rule
    rw [if_neg (by decide), hsplit]
    dsimp only
    rw [if_neg (by simp [hname, hright]), hkind]
    dsimp only
    rw [if_pos hprocess, hstored]

/-- A line that is not accepted goes to no rule. -/
theorem add_simple_rule_error {raw : Text} (htrim : trimSpace raw = raw)
    (h : lineEntry checks raw = none) (action : SimpleAction) (rule : RouteRule) :
    ∃ reason, add_simple_rule checks raw rule (get_rule_type raw action) = .error reason := by
  unfold add_simple_rule
  dsimp only
  split
  · exact ⟨_, rfl⟩
  · rename_i hok
    have hpasses : passes checks raw = true := decide_eq_true hok
    have hnone : simple_rule_values checks raw = none := by
      cases hvalues : simple_rule_values checks raw with
      | none => rfl
      | some entry =>
        rw [lineEntry, hvalues, Option.filter_some, if_pos hpasses] at h
        cases h
    have hempty : ∀ kind, LineKind.ofPrefix (SplitRuleLine raw).1 = some kind →
        (SplitRuleLine raw).2 = [] := by
      intro kind hkind
      by_contra hvalue
      revert hkind hvalue
      unfold SplitRuleLine
      rw [htrim]
      cases hcut : cut ':' raw with
      | none => exact fun _ h => h rfl
      | some halves =>
        obtain ⟨left, right⟩ := halves
        dsimp only
        split
        · exact fun _ h => h rfl
        · intro hkind hvalue
          have hsome := (simple_rule_values_eq_some checks).mpr
            ⟨left, right, hcut, ofPrefix_eq_some.mp hkind, hvalue, rfl⟩
          rw [hnone] at hsome
          cases hsome
    have hsplit : SplitRuleLine raw = ((SplitRuleLine raw).1, (SplitRuleLine raw).2) := rfl
    split
    · unfold add_simple_address_rule
      rw [hsplit]
      dsimp only
      split
      · exact ⟨_, rfl⟩
      · rename_i hne
        cases hkind : LineKind.ofPrefix (SplitRuleLine raw).1 with
        | none => exact ⟨_, rfl⟩
        | some kind => exact absurd (.inr (hempty kind hkind)) hne
    · unfold add_simple_process_rule
      rw [hsplit]
      dsimp only
      split
      · exact ⟨_, rfl⟩
      · rename_i hne
        cases hkind : LineKind.ofPrefix (SplitRuleLine raw).1 with
        | none => exact ⟨_, rfl⟩
        | some kind => exact absurd (.inr (hempty kind hkind)) hne

theorem simple_rule_values_of_lineEntry {raw : Text} {entry : LineKind × Text}
    (h : lineEntry checks raw = some entry) : simple_rule_values checks raw = some entry :=
  (Option.filter_eq_some_iff.mp h).1

/-- **A line of a text is added just when it is accepted.** -/
theorem updateLine_rules (action : SimpleAction) (outbound : Option ℤ) (i : ℕ) (item : Text)
    (state : List RejectedLine × List RouteRule) :
    (updateLine checks action outbound i item state).2 =
      match lineEntry checks (trimSpace item) with
      | none => state.2
      | some (kind, value) =>
        changeFirst (isBucket (kindType action kind) outbound)
          (fun rule => rule.addValue kind value) state.2 := by
  have htrim := trimSpace_trimSpace item
  unfold updateLine
  dsimp only
  cases hentry : lineEntry checks (trimSpace item) with
  | none =>
    split
    · rfl
    · split
      · rfl
      · have herror := add_simple_rule_error checks htrim hentry action
        unfold addLine
        cases state.2.find? (isBucket (get_rule_type (trimSpace item) action) outbound) with
        | none => rfl
        | some rule =>
          obtain ⟨reason, hreason⟩ := herror rule
          dsimp only
          rw [hreason]
  | some entry =>
    obtain ⟨kind, value⟩ := entry
    have hvalues := simple_rule_values_of_lineEntry checks hentry
    have hraw : trimSpace item ≠ [] := by
      intro hnil
      rw [hnil] at hvalues
      cases hvalues
    rw [if_neg hraw, get_rule_type_of_values checks htrim hvalues action,
      if_neg (kindType_ne_custom action kind)]
    unfold addLine
    cases hfind : state.2.find? (isBucket (kindType action kind) outbound) with
    | none =>
      have hnone := List.find?_eq_none.mp hfind
      exact (changeFirst_of_none (fun rule hrule => Bool.eq_false_iff.mpr (hnone rule hrule)) _).symm
    | some rule =>
      dsimp only
      rw [add_simple_rule_ok checks htrim hentry action]
      exact changeFirst_const hfind fun rule => rule.addValue kind value

/-- The accepted lines of a text. -/
def entries (content : Text) : List (LineKind × Text) :=
  (content.splitOn '\n').filterMap fun item => lineEntry checks (trimSpace item)

/-- The rules with one line more in the rule of its type. -/
def addEntry (action : SimpleAction) (outbound : Option ℤ) (rules : List RouteRule)
    (entry : LineKind × Text) : List RouteRule :=
  changeFirst (isBucket (kindType action entry.1) outbound)
    (fun rule => rule.addValue entry.1 entry.2) rules

theorem updateLines_rules (action : SimpleAction) (outbound : Option ℤ) (items : List (Text × ℕ))
    (state : List RejectedLine × List RouteRule) :
    (items.foldl (fun state item => updateLine checks action outbound item.2 item.1 state)
        state).2 =
      ((items.map Prod.fst).filterMap fun item => lineEntry checks (trimSpace item)).foldl
        (addEntry action outbound) state.2 := by
  induction items generalizing state with
  | nil => rfl
  | cons item items ih =>
    rw [List.foldl_cons, ih, updateLine_rules, List.map_cons, List.filterMap_cons]
    cases lineEntry checks (trimSpace item.1) with
    | none => rfl
    | some entry => rfl

/-- **A text is its accepted lines**: the rules are reset, get the lines, and lose the empty ones. -/
theorem UpdateSimpleRules_rules (stores : Stores) (content : Text) (action : SimpleAction)
    (outbound : Option ℤ) (rules : List RouteRule) :
    (UpdateSimpleRules checks stores content action outbound rules).2 =
      FilterEmptyRules stores ((entries checks content).foldl (addEntry action outbound)
        ((simple_rule_types action).foldl (fun rules type =>
          ResetSimpleRule type outbound rules) rules)) := by
  unfold UpdateSimpleRules entries
  dsimp only
  rw [updateLines_rules, List.zipIdx_map_fst]

/-! ## Lines in canonical form -/

/-- A line as it is listed. -/
def lineText (entry : LineKind × Text) : Text := entry.1.prefixText ++ ':' :: entry.2

theorem colon_notMem_prefixText (kind : LineKind) : ':' ∉ kind.prefixText := by
  cases kind <;> decide

theorem lineText_injective : Function.Injective lineText := by
  rintro ⟨kind, value⟩ ⟨kind', value'⟩ h
  have hcut := cut_append (colon_notMem_prefixText kind) value
  have hcut' := cut_append (colon_notMem_prefixText kind') value'
  have hsame : kind.prefixText ++ ':' :: value = kind'.prefixText ++ ':' :: value' := h
  rw [hsame, hcut'] at hcut
  obtain ⟨hstarts, rfl⟩ := Prod.mk.inj (Option.some_inj.mp hcut)
  have hkind := ofPrefix_eq_some.mpr hstarts
  rw [ofPrefix_eq_some.mpr rfl] at hkind
  rw [Option.some_inj.mp hkind]

/-- A value as a list keeps it. -/
structure Canonical (entry : LineKind × Text) : Prop where
  value_ne_nil : entry.2 ≠ []
  trimmed : trimSpace entry.2 = entry.2
  newline : '\n' ∉ entry.2
  stored : entry.1.stored checks entry.2 = entry.2
  checked : ¬ ((checks.check_value entry.1 entry.2).isError = true ∧
    (checks.check_value entry.1 entry.2).message ≠ [])

/-- What is checked is the value as it is stored. -/
theorem CheckSimpleRule_of_values {raw : Text} (htrim : trimSpace raw = raw) {kind : LineKind}
    {value : Text} (h : simple_rule_values checks raw = some (kind, value)) :
    CheckSimpleRule checks raw = checks.check_value kind value := by
  obtain ⟨left, right, hcut, hleft, hright, rfl⟩ := (simple_rule_values_eq_some checks).mp h
  have hraw : raw ≠ [] := by
    rintro rfl
    cases hcut
  unfold CheckSimpleRule
  dsimp only
  rw [htrim, if_neg hraw, hcut, Option.getD_some]
  dsimp only
  rw [ofPrefix_eq_some.mpr hleft]
  exact if_neg hright

theorem canonical_of_lineEntry {raw : Text} (htrim : trimSpace raw = raw) (hline : '\n' ∉ raw)
    {entry : LineKind × Text} (h : lineEntry checks raw = some entry) : Canonical checks entry := by
  obtain ⟨kind, value⟩ := entry
  obtain ⟨hvalues, hpasses⟩ := Option.filter_eq_some_iff.mp h
  have hchecked : ¬ ((CheckSimpleRule checks raw).isError = true ∧
      (CheckSimpleRule checks raw).message ≠ []) := of_decide_eq_true hpasses
  rw [CheckSimpleRule_of_values checks htrim hvalues] at hchecked
  obtain ⟨left, right, hcut, hleft, hright, rfl⟩ := (simple_rule_values_eq_some checks).mp hvalues
  have hnewline : '\n' ∉ trimSpace right := by
    intro hmem
    apply hline
    rw [(eq_append_of_cut hcut).1]
    exact List.mem_append_right _ (List.mem_cons_of_mem _ ((trimSpace_isInfix right).subset hmem))
  refine ⟨?_, ?_, ?_, ?_, hchecked⟩
  all_goals unfold LineKind.stored; dsimp only; split
  · rwa [Ne, checks.toLower_eq_nil]
  · exact hright
  · rw [checks.trimSpace_toLower, trimSpace_trimSpace]
  · exact trimSpace_trimSpace right
  · exact fun hmem => hnewline (checks.newline_of_toLower _ hmem)
  · exact hnewline
  · exact checks.toLower_toLower _
  · rfl

variable {checks}

theorem Canonical.trimSpace_lineText {entry : LineKind × Text} (h : Canonical checks entry) :
    trimSpace (lineText entry) = lineText entry := by
  obtain ⟨kind, value⟩ := entry
  apply trimSpace_of_ends
  · intro c hc
    unfold lineText at hc
    revert hc
    cases kind <;> exact fun hc => by cases hc; decide
  · intro c hc
    unfold lineText at hc
    rw [List.getLast?_append, List.getLast?_cons_of_ne_nil h.value_ne_nil] at hc
    have hlast := @isSpace_getLast_trimSpace value c
    rw [h.trimmed] at hlast
    apply hlast
    rw [List.getLast?_eq_some_getLast h.value_ne_nil] at hc ⊢
    exact hc

theorem Canonical.newline_lineText {entry : LineKind × Text} (h : Canonical checks entry) :
    '\n' ∉ lineText entry := by
  obtain ⟨kind, value⟩ := entry
  intro hmem
  have hstarts : '\n' ∉ kind.prefixText := by cases kind <;> decide
  rcases List.mem_append.mp hmem with hname | hrest
  · exact hstarts hname
  · rcases List.mem_cons.mp hrest with hcolon | hvalue
    · exact absurd hcolon (by decide)
    · exact h.newline hvalue

/-- **A listed line reads back.** -/
theorem Canonical.lineEntry_lineText {entry : LineKind × Text} (h : Canonical checks entry) :
    lineEntry checks (lineText entry) = some entry := by
  obtain ⟨kind, value⟩ := entry
  have hstarts : trimSpace kind.prefixText = kind.prefixText := by cases kind <;> decide
  have hvalues : simple_rule_values checks (lineText (kind, value)) = some (kind, value) := by
    refine (simple_rule_values_eq_some checks).mpr ⟨kind.prefixText, value,
      cut_append (colon_notMem_prefixText kind) value, hstarts, ?_, ?_⟩
    · rw [h.trimmed]
      exact h.value_ne_nil
    · rw [h.trimmed]
      exact h.stored.symm
  have hpasses : passes checks (lineText (kind, value)) = true := by
    unfold passes
    dsimp only
    rw [CheckSimpleRule_of_values checks h.trimSpace_lineText hvalues, decide_eq_true_eq]
    exact h.checked
  unfold lineEntry
  rw [hvalues, Option.filter_some, if_pos hpasses]

end Lines

/-! ## Empty rules -/

/-- A rule of one of the basic lists. -/
def IsSimple (rule : RouteRule) : Prop := rule.type ≠ .custom ∧ rule.type ≠ .endpointPreferredBy

theorem isSimple_of_mem_types {action : SimpleAction} {rule : RouteRule}
    (h : rule.type ∈ simple_rule_types action) : IsSimple rule := by
  refine ⟨fun hcustom => ?_, fun hend => ?_⟩
  · rw [hcustom] at h
    revert h
    cases action <;> decide
  · rw [hend] at h
    revert h
    cases action <;> decide

/-- A simple rule is empty when the lists of its kind are; no test changes it. -/
theorem isEmpty_simple {stores : Stores} {rule : RouteRule} (h : IsSimple rule) :
    (isEmpty stores rule).2 = rule ∧ ((isEmpty stores rule).1 = true ↔
      ∀ kind, isProcess kind = !isSimpleAddress rule.type → rule.values kind = []) := by
  unfold isEmpty
  rw [if_pos h.1, if_neg h.2]
  cases htype : isSimpleAddress rule.type with
  | true =>
    rw [if_pos rfl]
    refine ⟨rfl, ?_⟩
    simp only [Bool.and_eq_true, decide_eq_true_eq]
    constructor
    · rintro ⟨⟨⟨⟨⟨hd, hs⟩, hk⟩, hr⟩, hset⟩, hip⟩ kind hkind
      cases kind <;> first | assumption | exact absurd hkind (by decide)
    · exact fun hall => ⟨⟨⟨⟨⟨hall .domain rfl, hall .domain_suffix rfl⟩, hall .domain_keyword rfl⟩,
        hall .domain_regex rfl⟩, hall .rule_set rfl⟩, hall .ip_cidr rfl⟩
  | false =>
    rw [if_neg (by decide)]
    refine ⟨rfl, ?_⟩
    simp only [Bool.and_eq_true, decide_eq_true_eq]
    constructor
    · rintro ⟨hname, hpath⟩ kind hkind
      cases kind <;> first | assumption | exact absurd hkind (by decide)
    · exact fun hall => ⟨hall .process_name rfl, hall .process_path rfl⟩

theorem type_isEmpty (stores : Stores) (rule : RouteRule) :
    (isEmpty stores rule).2.type = rule.type := by
  unfold isEmpty
  split
  · split
    · rfl
    · split <;> rfl
  · unfold get_rule_json
    dsimp only
    split <;> rfl

theorem outboundID_isEmpty (stores : Stores) (rule : RouteRule) :
    (isEmpty stores rule).2.outboundID = rule.outboundID := by
  unfold isEmpty
  split
  · split
    · rfl
    · split <;> rfl
  · unfold get_rule_json
    dsimp only
    split <;> rfl

theorem effective_action_idem (rule : RouteRule) :
    effective_action { rule with action := effective_action rule } = effective_action rule := by
  by_cases hrewritten : rule.action = Configs.actionRoute ∧
      (rule.outboundID = blockID ∨ rule.outboundID = dnsOutID)
  · apply effective_action_eq
    rintro ⟨haction, -⟩
    exact effective_action_ne hrewritten.1 hrewritten.2 (haction.trans hrewritten.1.symm)
  · rw [effective_action_eq hrewritten]
    exact effective_action_eq hrewritten

/-- A second test finds the rule as the first one left it. -/
theorem isEmpty_isEmpty (stores : Stores) (rule : RouteRule) :
    isEmpty stores (isEmpty stores rule).2 = isEmpty stores rule := by
  by_cases htype : rule.type = .custom
  · have hleft : (isEmpty stores rule).2 = { rule with action := effective_action rule } := by
      unfold isEmpty
      rw [if_neg (by simp [htype])]
      unfold get_rule_json
      rw [if_neg (by simp [htype])]
    rw [hleft]
    unfold isEmpty
    rw [if_neg (by simp [htype]), if_neg (by simp [htype])]
    unfold get_rule_json
    rw [if_neg (by simp [htype]), if_neg (by simp [htype])]
    dsimp only
    rw [effective_action_idem]
  · have hleft : (isEmpty stores rule).2 = rule := by
      unfold isEmpty
      rw [if_pos htype]
      split
      · rfl
      · split <;> rfl
    rw [hleft]

end Throned.Routes
