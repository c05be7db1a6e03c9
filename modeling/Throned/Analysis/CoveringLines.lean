import Throned.Model.SimpleRules

/-!
# Lines that another list covers

A keyword inside the value, or a shorter suffix of whole labels, hits every host that the line
hits.  So the line is covered by the rule with it, if that rule asks for nothing but the address.
A hand-made rule counts only then; an imported simple rule counts whatever else it asks for.
-/

set_option autoImplicit false

namespace Throned.Routes

open Throned.Library
open Throned.Configs (proxyID)

variable (checks : LineChecks)

/-! ## Hosts -/

/-- `suffix:s` hits `s` and each name that ends with `s` after a dot, `keyword:k` each name that
contains `k`, in lower case. -/
def hits (kind : LineKind) (value host : Text) : Prop :=
  match kind with
  | .domain_suffix =>
    checks.toLower host = checks.toLower value ∨
      ('.' :: checks.toLower value) <:+ checks.toLower host
  | .domain_keyword => checks.toLower value <:+: checks.toLower host
  | .domain => checks.toLower host = checks.toLower value
  | _ => False

/-- The hosts of a suffix or keyword line. -/
def lineHits (rawRule host : Text) : Prop :=
  ∃ left right kind, cut ':' (trimSpace rawRule) = some (left, right) ∧
    LineKind.ofPrefix (trimSpace left) = some kind ∧
    (kind = .domain_suffix ∨ kind = .domain_keyword) ∧ hits checks kind (trimSpace right) host

/-- A rule without conditions other than addresses. -/
structure OnlyAddresses (rule : RouteRule) : Prop where
  ip_version : trimSpace rule.ip_version = []
  network : trimSpace rule.network = []
  protocol : trimSpace rule.protocol = []
  inbound : isValidStrArray rule.inbound = false
  source_ip_cidr : isValidStrArray rule.source_ip_cidr = false
  source_ip_is_private : rule.source_ip_is_private = false
  source_port : isValidStrArray rule.source_port = false
  source_port_range : isValidStrArray rule.source_port_range = false
  port : isValidStrArray rule.port = false
  port_range : isValidStrArray rule.port_range = false
  process_name : isValidStrArray rule.process_name = false
  process_path : isValidStrArray rule.process_path = false
  process_path_regex : isValidStrArray rule.process_path_regex = false
  package_name : isValidStrArray rule.package_name = false
  wifi_ssid : isValidStrArray rule.wifi_ssid = false
  wifi_bssid : isValidStrArray rule.wifi_bssid = false

/-- A connection to a host, as the core sees it. -/
structure Connection where
  host : Text
  /-- Whether a pattern, a rule set or a range of the rule has the address. -/
  inRanges : RouteRule → Prop
  /-- Whether it meets the rule's conditions that are not about the address. -/
  meets : RouteRule → Prop
  meets_onlyAddresses : ∀ rule, OnlyAddresses rule → meets rule

def HasAddresses (rule : RouteRule) : Prop :=
  rule.ip_is_private = true ∨
    ∃ kind, isProcess kind = false ∧ isValidStrArray (rule.values kind) = true

def addressHit (rule : RouteRule) (connection : Connection) : Prop :=
  ¬ HasAddresses rule ∨
    (∃ kind, ∃ value ∈ rule.values kind, value ≠ [] ∧ hits checks kind value connection.host) ∨
    connection.inRanges rule

/-- Whether an enabled rule decides about the connection. -/
def catches (rule : RouteRule) (connection : Connection) : Prop :=
  if rule.invert then ¬ (addressHit checks rule connection ∧ connection.meets rule)
  else addressHit checks rule connection ∧ connection.meets rule

/-- A rule that asks for addresses alone. -/
def Plain (rule : RouteRule) : Prop := OnlyAddresses rule ∧ rule.invert = false

/-- **A line that is reported as covered is**: rules of the reported target, before the first rule
of the line's own target, catch every connection to a host of the line. -/
def Covered (darwin : Bool) (rawRule : Text) (target : SimpleTarget) (rules : List RouteRule) :
    Prop :=
  ∀ line other, CoveringSimpleRule checks darwin rawRule target rules = some (line, other) →
    other ≠ target ∧ ∀ connection : Connection, lineHits checks rawRule connection.host →
      ∃ rule ∈ rulesBefore darwin (trimSpace rawRule) target rules, rule.disabled = false ∧
        addressTarget darwin (trimSpace rawRule) rule = some other ∧
        catches checks rule connection

/-- Everything that contains the value contains a keyword inside it. -/
theorem hits_of_keyword {kind : LineKind} {value host keyword : Text}
    (hkind : kind = .domain_suffix ∨ kind = .domain_keyword)
    (hinside : checks.toLower keyword <:+: checks.toLower value) (h : hits checks kind value host) :
    hits checks .domain_keyword keyword host := by
  have hcontains : checks.toLower value <:+: checks.toLower host := by
    rcases hkind with rfl | rfl
    · rcases h with heq | hsuffix
      · exact heq ▸ List.infix_rfl
      · exact ((List.suffix_cons _ _).trans hsuffix).isInfix
    · exact h
  exact hinside.trans hcontains

/-- A longer suffix ends with the shorter one after a dot. -/
theorem hits_of_suffix {value host suffix : Text}
    (hends : ('.' :: checks.toLower suffix) <:+ checks.toLower value)
    (h : hits checks .domain_suffix value host) : hits checks .domain_suffix suffix host := by
  refine .inr ?_
  rcases h with heq | hsuffix
  · rw [heq]
    exact hends
  · exact hends.trans ((List.suffix_cons _ _).trans hsuffix)

/-- The hosts of the line are hit by the rule with a covering line. -/
theorem addressHit_of_coveringLine {kind : LineKind} {value line : Text} {rule : RouteRule}
    (hkind : kind = .domain_suffix ∨ kind = .domain_keyword)
    (hline : coveringLine checks kind (checks.toLower value) rule = some line)
    {connection : Connection} (h : hits checks kind value connection.host) :
    addressHit checks rule connection := by
  unfold coveringLine at hline
  split at hline
  · rename_i keyword hfind
    have hfound := List.find?_some hfind
    dsimp only at hfound
    rw [decide_eq_true_eq] at hfound
    refine .inr (.inl ⟨.domain_keyword, keyword, List.mem_of_find?_eq_some hfind, ?_,
      hits_of_keyword checks hkind hfound.2.1 h⟩)
    rintro rfl
    exact hfound.1 ((checks.toLower_eq_nil []).mpr rfl)
  · split at hline
    · cases hline
    · rename_i hsuffixKind
      rw [ne_eq, not_not] at hsuffixKind
      subst hsuffixKind
      obtain ⟨suffix, hfind, -⟩ := Option.map_eq_some_iff.mp hline
      have hfound := List.find?_some hfind
      dsimp only at hfound
      rw [decide_eq_true_eq] at hfound
      refine .inr (.inl ⟨.domain_suffix, suffix, List.mem_of_find?_eq_some hfind, ?_,
        hits_of_suffix checks hfound.2 h⟩)
      rintro rfl
      exact hfound.1 ((checks.toLower_eq_nil []).mpr rfl)

/-! ## The rule the walk stops at -/

/-- A rule that the walk over the list stops at: it is enabled, belongs to another target and has
a covering line. -/
def offers (darwin : Bool) (rawRule : Text) (target : SimpleTarget) (kind : LineKind)
    (value : Text) (rule : RouteRule) : Bool :=
  !rule.disabled &&
    (addressTarget darwin (trimSpace rawRule) rule).any fun other =>
      other ≠ target && (coveringLine checks kind value rule).isSome

/-- The rules before the target's own that the walk over them can stop at. -/
def coveringRules (darwin : Bool) (rawRule : Text) (target : SimpleTarget)
    (rules : List RouteRule) : List RouteRule :=
  match cut ':' (trimSpace rawRule) with
  | none => []
  | some (left, right) =>
    match LineKind.ofPrefix (trimSpace left) with
    | none => []
    | some kind =>
      (rulesBefore darwin (trimSpace rawRule) target rules).filter
        (offers checks darwin rawRule target kind (checks.toLower (trimSpace right)))

theorem findSome?_eq_of_head_filter {α β : Type*} {p : α → Bool} {f : α → Option β} {xs : List α}
    (hf : ∀ x, (f x).isSome = p x) {y : β} (h : xs.findSome? f = some y) :
    ∃ x rest, xs.filter p = x :: rest ∧ f x = some y := by
  induction xs with
  | nil => cases h
  | cons x xs ih =>
    rw [List.findSome?_cons] at h
    cases hx : f x with
    | none =>
      rw [hx] at h
      have hp : ¬ p x = true := by simp [← hf, hx]
      rw [List.filter_cons_of_neg hp]
      exact ih h
    | some z =>
      rw [hx] at h
      have hp : p x = true := by simp [← hf, hx]
      exact ⟨x, xs.filter p, List.filter_cons_of_pos hp, hx.trans h⟩

theorem isSome_offer (darwin : Bool) (rawRule : Text) (target : SimpleTarget) (kind : LineKind)
    (value : Text) (rule : RouteRule) :
    (match addressTarget darwin (trimSpace rawRule) rule with
      | none => none
      | some other =>
        if other = target ∨ rule.disabled then none
        else (coveringLine checks kind value rule).map fun line => (line, other)).isSome =
      offers checks darwin rawRule target kind value rule := by
  unfold offers
  cases addressTarget darwin (trimSpace rawRule) rule with
  | none => simp
  | some other =>
    dsimp only [Option.any_some]
    split
    · rename_i hpass
      rcases hpass with rfl | hdisabled
      · simp
      · simp [hdisabled]
    · rename_i hpass
      obtain ⟨hother, henabled⟩ := not_or.mp hpass
      simp [hother, henabled]

/-- What is reported is read off the first rule that the walk can stop at. -/
theorem CoveringSimpleRule_eq_some {darwin : Bool} {rawRule : Text} {target : SimpleTarget}
    {rules : List RouteRule} {line : Text} {other : SimpleTarget}
    (h : CoveringSimpleRule checks darwin rawRule target rules = some (line, other)) :
    ∃ left right kind rule rest, cut ':' (trimSpace rawRule) = some (left, right) ∧
      LineKind.ofPrefix (trimSpace left) = some kind ∧
      (kind = .domain_suffix ∨ kind = .domain_keyword) ∧
      coveringRules checks darwin rawRule target rules = rule :: rest ∧
      rule ∈ rulesBefore darwin (trimSpace rawRule) target rules ∧ rule.disabled = false ∧
      addressTarget darwin (trimSpace rawRule) rule = some other ∧ other ≠ target ∧
      coveringLine checks kind (checks.toLower (trimSpace right)) rule = some line := by
  unfold CoveringSimpleRule at h
  dsimp only at h
  split at h
  · cases h
  · rename_i left right hcut
    split at h
    · rename_i kind hkind
      split at h
      · cases h
      · rename_i hline
        obtain ⟨rule, rest, hfilter, hrule⟩ := findSome?_eq_of_head_filter
          (p := offers checks darwin rawRule target kind (checks.toLower (trimSpace right)))
          (isSome_offer checks darwin rawRule target kind _) h
        have hmem : rule ∈ rulesBefore darwin (trimSpace rawRule) target rules :=
          List.mem_of_mem_filter (hfilter ▸ List.mem_cons_self)
        split at hrule
        · cases hrule
        · rename_i other' hother
          split at hrule
          · cases hrule
          · rename_i hpass
            obtain ⟨line', hline', heq⟩ := Option.map_eq_some_iff.mp hrule
            obtain ⟨rfl, rfl⟩ := Prod.mk.inj heq
            refine ⟨left, right, kind, rule, rest, hcut, hkind, ?_, ?_, hmem, ?_, hother, ?_,
              hline'⟩
            · by_contra hnot
              exact hline (.inr (not_or.mp hnot))
            · unfold coveringRules
              rw [hcut]
              dsimp only
              rw [hkind]
              exact hfilter
            · exact Bool.eq_false_iff.mpr fun hdisabled => hpass (.inr hdisabled)
            · exact fun heq => hpass (.inl heq)
    · cases h

/-! ## The guarantee -/

/-- A rule that asks for addresses alone catches what its addresses hit. -/
theorem Plain.catches {checks : LineChecks} {rule : RouteRule} (h : Plain rule) {connection : Connection}
    (hhit : addressHit checks rule connection) : catches checks rule connection := by
  unfold Routes.catches
  rw [if_neg (by simp [h.2])]
  exact ⟨hhit, connection.meets_onlyAddresses rule h.1⟩

/-- A rule that asks for more does not catch every connection to a host. -/
theorem exists_not_catches {rule : RouteRule} (h : ¬ Plain rule) (host : Text)
    (hhit : ∀ connection : Connection, connection.host = host → addressHit checks rule connection) :
    ∃ connection : Connection, connection.host = host ∧ ¬ catches checks rule connection := by
  by_cases hinvert : rule.invert = true
  · refine ⟨⟨host, fun _ => False, fun _ => True, fun _ _ => trivial⟩, rfl, fun hcatches => ?_⟩
    unfold Routes.catches at hcatches
    rw [if_pos hinvert] at hcatches
    exact hcatches ⟨hhit _ rfl, trivial⟩
  · refine ⟨⟨host, fun _ => False, OnlyAddresses, fun _ h => h⟩, rfl, fun hcatches => ?_⟩
    unfold Routes.catches at hcatches
    rw [if_neg hinvert] at hcatches
    exact h ⟨hcatches.2, Bool.eq_false_iff.mpr hinvert⟩

theorem lineHits_self {rawRule left right : Text} {kind : LineKind}
    (hcut : cut ':' (trimSpace rawRule) = some (left, right))
    (hkind : LineKind.ofPrefix (trimSpace left) = some kind)
    (hline : kind = .domain_suffix ∨ kind = .domain_keyword) :
    lineHits checks rawRule (trimSpace right) ∧ hits checks kind (trimSpace right) (trimSpace right) := by
  have hhits : hits checks kind (trimSpace right) (trimSpace right) := by
    rcases hline with rfl | rfl
    · exact .inl rfl
    · exact List.infix_rfl
  exact ⟨⟨left, right, kind, hcut, hkind, hline, hhits⟩, hhits⟩

/-- **A line is covered where the walk stops at a rule that asks for addresses alone.**  Where no
other enabled rule of that rule's target stands before the line's own, it is covered only then. -/
theorem covered_of_plain (darwin : Bool) (rawRule : Text)
    (target : SimpleTarget) (rules : List RouteRule) :
    ((∀ rule ∈ (coveringRules checks darwin rawRule target rules).head?, Plain rule) →
      Covered checks darwin rawRule target rules) ∧
    ((∀ rule ∈ (coveringRules checks darwin rawRule target rules).head?,
        ∀ later ∈ rulesBefore darwin (trimSpace rawRule) target rules, later.disabled = false →
          addressTarget darwin (trimSpace rawRule) later =
            addressTarget darwin (trimSpace rawRule) rule → later = rule) →
      (CoveringSimpleRule checks darwin rawRule target rules).isSome = true →
      Covered checks darwin rawRule target rules →
      ∀ rule ∈ (coveringRules checks darwin rawRule target rules).head?, Plain rule) := by
  constructor
  · intro hplain line other hsome
    obtain ⟨left, right, kind, rule, rest, hcut, hkind, hline, hrules, hmem, henabled, hother,
      hne, hcovering⟩ := CoveringSimpleRule_eq_some checks hsome
    refine ⟨hne, fun connection hhits => ⟨rule, hmem, henabled, hother, ?_⟩⟩
    apply (hplain rule (by rw [hrules]; rfl)).catches
    obtain ⟨left', right', kind', hcut', hkind', -, hhost⟩ := hhits
    obtain ⟨rfl, rfl⟩ := Prod.mk.inj (Option.some_inj.mp (hcut.symm.trans hcut'))
    obtain rfl := Option.some_inj.mp (hkind.symm.trans hkind')
    exact addressHit_of_coveringLine checks hline hcovering hhost
  · intro honly hreported hcovered rule hrule
    obtain ⟨⟨line, other⟩, hsome⟩ := Option.isSome_iff_exists.mp hreported
    obtain ⟨left, right, kind, first, rest, hcut, hkind, hline, hrules, hmem, henabled, hother,
      hne, hcovering⟩ := CoveringSimpleRule_eq_some checks hsome
    obtain rfl : first = rule := by
      rw [hrules] at hrule
      exact Option.some_inj.mp hrule
    by_contra hnot
    obtain ⟨hlineHits, hself⟩ := lineHits_self checks hcut hkind hline
    obtain ⟨connection, hhost, hmissed⟩ := exists_not_catches checks hnot (trimSpace right)
      fun connection hhost =>
        addressHit_of_coveringLine checks hline hcovering (hhost ▸ hself)
    obtain ⟨later, hlater, hon, htarget, hcatches⟩ :=
      (hcovered line other hsome).2 connection (hhost ▸ hlineHits)
    obtain rfl := honly first hrule later hlater hon (htarget.trans hother.symm)
    exact hmissed hcatches

/-- An imported simple rule that asks for a port beside its keyword, and one that does not. -/
def portRules (port : List Text) : List RouteRule :=
  [{ type := .simpleAddressProxy, outboundID := proxyID, domain_keyword := ["hub".toList],
     port := port }]

def bypassTarget : SimpleTarget := { action := .bypass }

theorem covered_of_plain_keyword :
    Covered LineChecks.lenient false "suffix:github.com".toList bypassTarget (portRules []) := by
  apply (covered_of_plain LineChecks.lenient false "suffix:github.com".toList bypassTarget
    (portRules [])).1
  intro rule hrule
  have hrules : (coveringRules LineChecks.lenient false "suffix:github.com".toList bypassTarget
      (portRules [])) = portRules [] := by decide +kernel
  rw [hrules] at hrule
  obtain rfl := Option.some_inj.mp hrule
  exact ⟨by constructor <;> decide, rfl⟩

/-- The keyword of a rule for one port is reported for a suffix of every port. -/
theorem port_notCovered :
    CoveringSimpleRule LineChecks.lenient false "suffix:github.com".toList bypassTarget
        (portRules ["443".toList]) = some ("keyword:hub".toList, { action := .proxy }) ∧
      ¬ Covered LineChecks.lenient false "suffix:github.com".toList bypassTarget
        (portRules ["443".toList]) := by
  have hreported : CoveringSimpleRule LineChecks.lenient false "suffix:github.com".toList
      bypassTarget (portRules ["443".toList]) =
        some ("keyword:hub".toList, { action := .proxy }) := by
    decide +kernel
  refine ⟨hreported, fun hcovered => ?_⟩
  let connection : Connection := ⟨"github.com".toList, fun _ => False, OnlyAddresses, fun _ h => h⟩
  have hhits : lineHits LineChecks.lenient "suffix:github.com".toList connection.host :=
    ⟨"suffix".toList, "github.com".toList, .domain_suffix, by decide +kernel, by decide +kernel,
      .inl rfl, .inl (by decide +kernel)⟩
  obtain ⟨rule, hrule, -, -, hcatches⟩ := (hcovered _ _ hreported).2 connection hhits
  have hmem : rule ∈ portRules ["443".toList] := (List.takeWhile_subset _) hrule
  obtain rfl := List.mem_singleton.mp hmem
  have hmeets := hcatches.2.port
  exact absurd hmeets (by decide)

end Throned.Routes
