import Throned.Model.AppRoutes

/-!
# What rendering leaves behind

`get_rule_json` writes the action a rule has in effect over the one it stores.  The two differ for
a route to the block or the DNS outbound alone, so the rules without such a route are exactly the
ones that every render, share and test for emptiness leaves as they were.
-/

set_option autoImplicit false

namespace Throned.Routes

open Throned.Configs (proxyID directID actionRoute)

/-- A rule whose action in effect is another than the stored one. -/
def Rewritten (rule : RouteRule) : Prop :=
  rule.type ≠ .endpointPreferredBy ∧ rule.action = actionRoute ∧
    (rule.outboundID = blockID ∨ rule.outboundID = dnsOutID)

instance (rule : RouteRule) : Decidable (Rewritten rule) := instDecidableAnd

theorem effective_action_eq {rule : RouteRule}
    (h : ¬ (rule.action = actionRoute ∧ (rule.outboundID = blockID ∨ rule.outboundID = dnsOutID))) :
    effective_action rule = rule.action := by
  unfold effective_action
  split
  · rename_i hroute
    have hout := fun hor => h ⟨hroute, hor⟩
    rw [if_neg fun hblock => hout (.inl hblock), if_neg fun hdns => hout (.inr hdns)]
  · rfl

theorem effective_action_ne {rule : RouteRule} (hroute : rule.action = actionRoute)
    (hout : rule.outboundID = blockID ∨ rule.outboundID = dnsOutID) :
    effective_action rule ≠ rule.action := by
  unfold effective_action
  rw [if_pos hroute, hroute]
  rcases hout with hblock | hdns
  · rw [if_pos hblock]
    decide
  · rw [if_neg (by rw [hdns]; decide), if_pos hdns]
    decide

section Rules

variable (stores : Stores)

/-- **A render leaves the rule** unless the action in effect is another. -/
theorem get_rule_json_left_iff (forView : Bool) (tag : Library.Text) (rule : RouteRule) :
    (get_rule_json stores forView tag rule).2 = rule ↔ ¬ Rewritten rule := by
  unfold get_rule_json
  split
  · rename_i hend
    exact iff_of_true rfl fun h => h.1 hend
  · rename_i hend
    dsimp only
    refine ⟨fun heq hrew => ?_, fun hkeep => ?_⟩
    · exact effective_action_ne hrew.2.1 hrew.2.2 (congrArg RouteRule.action heq)
    · rw [effective_action_eq fun h => hkeep ⟨hend, h⟩]

variable {stores} {rule : RouteRule}

theorem get_rule_json_left (h : ¬ Rewritten rule) (forView : Bool) (tag : Library.Text) :
    (get_rule_json stores forView tag rule).2 = rule :=
  (get_rule_json_left_iff stores forView tag rule).mpr h

theorem to_share_json_left (h : ¬ Rewritten rule) : (to_share_json stores rule).2 = rule := by
  unfold to_share_json
  split
  · rfl
  · dsimp only
    split
    · exact get_rule_json_left h true []
    · exact get_rule_json_left h true []

theorem isEmpty_left (h : ¬ Rewritten rule) : (isEmpty stores rule).2 = rule := by
  unfold isEmpty
  split
  · split
    · rfl
    · split <;> rfl
  · exact get_rule_json_left h false []

/-- The loop of a profile passes each rule or renders it. -/
theorem renderRules_left (env : RenderEnv) {rules : List RouteRule}
    (h : ∀ rule ∈ rules, ¬ Rewritten rule) (added : Bool) (res : List Library.JsonObject) :
    (renderRules stores env added res rules).2 = rules := by
  induction rules generalizing added res with
  | nil => rfl
  | cons item later ih =>
    have hlater := ih fun rule hrule => h rule (List.mem_cons_of_mem _ hrule)
    have hitem := h item List.mem_cons_self
    rw [renderRules]
    split
    · exact congrArg _ (hlater added res)
    · split
      · exact congrArg _ (hlater added res)
      · dsimp only
        split
        · exact congrArg _ (hlater added res)
        · rw [get_rule_json_left hitem]
          split
          · rfl
          · exact congrArg _ (hlater _ _)

theorem get_route_rules_left (env : RenderEnv) {rules : List RouteRule}
    (h : ∀ rule ∈ rules, ¬ Rewritten rule) : (get_route_rules stores env rules).2 = rules := by
  have hrules : (renderRules stores env false [] rules).2 = rules :=
    renderRules_left env h false []
  unfold get_route_rules
  split
  · rename_i heq
    rw [heq] at hrules
    exact hrules
  · rename_i heq
    rw [heq] at hrules
    exact hrules

end Rules

/-! ## Over a profile -/

/-- A read-only use of a profile's rules: of one rule, by its place, or of all. -/
inductive Render where
  | get_rule_json (i : ℕ) (forView : Bool) (outboundTag : Library.Text)
  | to_share_json (i : ℕ)
  | isEmpty (i : ℕ)
  | get_route_rules (env : RenderEnv)

/-- The rules that the use leaves. -/
def Render.left (stores : Stores) (rules : List RouteRule) : Render → List RouteRule
  | .get_rule_json i forView tag =>
    rules.modify i fun rule => (Routes.get_rule_json stores forView tag rule).2
  | .to_share_json i => rules.modify i fun rule => (Routes.to_share_json stores rule).2
  | .isEmpty i => rules.modify i fun rule => (Routes.isEmpty stores rule).2
  | .get_route_rules env => (Routes.get_route_rules stores env rules).2

/-- Whoever reads the rules answers as before. -/
structure SameAnswers (stores : Stores) (before after : List RouteRule) : Prop where
  fields : after = before
  owned : after.map (IsOwned stores) = before.map (IsOwned stores)
  read : Read stores (newObjects 0 after) = Read stores (newObjects 0 before)
  outbounds : get_used_outbounds after = get_used_outbounds before
  sites : ∀ outbound, get_sites after outbound = get_sites before outbound
  /-- `UpdateSimpleRules` and all others that are given the rules. -/
  others : ∀ {β : Type} (use : List RouteRule → β), use after = use before

theorem SameAnswers.refl (stores : Stores) (rules : List RouteRule) :
    SameAnswers stores rules rules where
  fields := rfl
  owned := rfl
  read := rfl
  outbounds := rfl
  sites := fun _ => rfl
  others := fun _ => rfl

theorem modify_of_forall {α : Type*} {f : α → α} {xs : List α} (h : ∀ x ∈ xs, f x = x) (i : ℕ) :
    xs.modify i f = xs := by
  induction xs generalizing i with
  | nil => cases i <;> rfl
  | cons x xs ih =>
    cases i with
    | zero => exact congrArg (· :: xs) (h x List.mem_cons_self)
    | succ i => exact congrArg (x :: ·) (ih (fun y hy => h y (List.mem_cons_of_mem _ hy)) i)

theorem Render.left_eq (stores : Stores) {rules : List RouteRule}
    (h : ∀ rule ∈ rules, ¬ Rewritten rule) (use : Render) : use.left stores rules = rules := by
  cases use with
  | get_rule_json i forView tag =>
    exact modify_of_forall (fun rule hrule => get_rule_json_left (h rule hrule) forView tag) i
  | to_share_json i => exact modify_of_forall (fun rule hrule => to_share_json_left (h rule hrule)) i
  | isEmpty i => exact modify_of_forall (fun rule hrule => isEmpty_left (h rule hrule)) i
  | get_route_rules env => exact get_route_rules_left env h

/-- **Reading the rules leaves them as they were exactly when no rule routes to the block or the
DNS outbound.** -/
theorem render_sameAnswers_iff (stores : Stores) (rules : List RouteRule) :
    (∀ use : Render, SameAnswers stores rules (use.left stores rules)) ↔
      ∀ rule ∈ rules, ¬ Rewritten rule := by
  constructor
  · intro h rule hrule
    obtain ⟨i, hi, rfl⟩ := List.getElem_of_mem hrule
    have hleft := (h (.get_rule_json i false [])).fields
    have hat : (rules.modify i fun rule => (get_rule_json stores false [] rule).2)[i]? =
        rules[i]? := congrArg (·[i]?) hleft
    rw [List.getElem?_modify_eq, List.getElem?_eq_getElem hi] at hat
    exact (get_rule_json_left_iff stores false [] rules[i]).mp (Option.some.inj hat)
  · intro h use
    rw [Render.left_eq stores h use]
    exact .refl stores rules

/-- No profile has a name and no rule set another one. -/
def bareStores : Stores where
  displayName := fun _ => some ['n']
  get_rule_set_name := id

/-- An entry of the Simple mode for one address, blocked. -/
def blockedApp : RouteRule :=
  { makeRule (RulePrefix ++ ['x']) blockID with domain_suffix := [['x', '.', 'o', 'r', 'g']] }

/-- **The view of a profile takes an entry from the Simple mode's screen.** -/
theorem view_losesBlockedApp :
    (let left := (Render.get_route_rules ⟨true, true, false, []⟩).left bareStores [blockedApp]
     (Read bareStores (newObjects 0 [blockedApp])).map Route.id = [['x']] ∧
       Read bareStores (newObjects 0 left) = []) ∧
    ¬ ∀ stores rules, ∀ use : Render, SameAnswers stores rules (use.left stores rules) := by
  constructor
  · decide +kernel
  · intro h
    have hfields := (h bareStores [blockedApp] (.get_rule_json 0 false [])).fields
    have hleft : (get_rule_json bareStores false [] blockedApp).2 = blockedApp :=
      (List.cons.inj hfields).1
    exact (get_rule_json_left_iff bareStores false [] blockedApp).mp hleft (by decide)

end Throned.Routes
