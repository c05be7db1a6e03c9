import Throned.Model.DnsSection

/-!
# Strict tunnel DNS

With Strict tunnel DNS the rules of the section are those without it, with the tunnel's server
in the place of dns-remote, up to the rules for proxied processes: they name dns-remote
whatever the tunnel asks for.
-/

set_option autoImplicit false

namespace Throned.Configs

open Throned.Library

/-! ## The tunnels -/

/-- The hops of a start whose tunnels do not ask for Strict. -/
def Tunnel.withoutStrict (tunnel : Tunnel) : Tunnel :=
  if tunnel.tunnel_dns = kTunnelDnsStrict then { tunnel with tunnel_dns := "prefer".toList }
  else tunnel

def withoutStrict (chains : List (hopChainOptions × List (Option Tunnel))) :
    List (hopChainOptions × List (Option Tunnel)) :=
  chains.map fun chain => (chain.1, chain.2.map (Option.map Tunnel.withoutStrict))

def keys (endpoints : List (Text × TunnelType)) : List Text := endpoints.map Prod.fst

theorem mem_keys_mapInsert {key other : Text} {value : TunnelType}
    {endpoints : List (Text × TunnelType)} :
    other ∈ keys (mapInsert key value endpoints) ↔ other = key ∨ other ∈ keys endpoints := by
  induction endpoints with
  | nil => simp [mapInsert, keys]
  | cons entry rest ih =>
    unfold mapInsert
    split
    · rename_i heq
      subst heq
      simp [keys]
    · split
      · simp [keys]
      · unfold keys at ih ⊢
        rw [List.map_cons, List.mem_cons, ih, List.map_cons, List.mem_cons]
        exact or_left_comm

theorem chainTag_ne_nil (opts : hopChainOptions) (idx : ℕ) : chainTag opts idx ≠ [] := by
  unfold chainTag
  split
  · decide
  · split
    · decide
    · unfold hopTag
      exact List.append_ne_nil_of_right_ne_nil _ (List.cons_ne_nil _ _)

/-- The strict tunnel is one of those announced, and no tag is empty. -/
structure VpnTags.Sound (tags : VpnTags) : Prop where
  strict : tags.vpnStrictTag ≠ [] → tags.vpnStrictTag ∈ keys tags.vpnEndpointTags
  nonempty : [] ∉ keys tags.vpnEndpointTags

theorem VpnTags.Sound.addHop {tags : VpnTags} (h : tags.Sound) (opts : hopChainOptions) (idx : ℕ)
    (hop : Option Tunnel) : (addHop opts tags idx hop).Sound := by
  unfold Configs.addHop
  simp only
  split
  · exact h
  · rename_i tunnel
    split
    · exact h
    · constructor
      · intro hne
        simp only at hne ⊢
        by_cases hstrict : tunnel.tunnel_dns = kTunnelDnsStrict ∧
            (chainTag opts idx = tagProxy ∨ chainTag opts idx = warpBypass)
        · have hsome : tunnel.tunnel_dns ≠ kTunnelDnsNone := by
            rw [hstrict.1]
            decide
          rw [if_pos hstrict, if_pos hsome, mem_keys_mapInsert]
          exact .inl rfl
        · rw [if_neg hstrict] at hne ⊢
          split
          · rw [mem_keys_mapInsert]
            exact .inr (h.strict hne)
          · exact h.strict hne
      · simp only
        split
        · rw [mem_keys_mapInsert, not_or]
          exact ⟨(chainTag_ne_nil opts idx).symm, h.nonempty⟩
        · exact h.nonempty

theorem VpnTags.Sound.addHops {opts : hopChainOptions} {hops : List (Option Tunnel)} :
    ∀ {tags : VpnTags} {idx : ℕ}, tags.Sound → (addHops opts tags idx hops).Sound := by
  induction hops with
  | nil => exact fun h => h
  | cons hop hops ih => exact fun h => ih (h.addHop opts _ hop)

theorem tunnelTags_sound (chains : List (hopChainOptions × List (Option Tunnel))) :
    (tunnelTags chains).Sound := by
  have hfold {tags : VpnTags} (h : tags.Sound) :
      (chains.foldl (fun tags chain => addHops chain.1 tags 0 chain.2) tags).Sound := by
    induction chains generalizing tags with
    | nil => exact h
    | cons chain chains ih => exact ih h.addHops
  exact hfold ⟨fun h => absurd rfl h, List.not_mem_nil⟩

theorem none_ne_prefer : "prefer".toList ≠ kTunnelDnsNone := by decide

theorem strict_ne_prefer : "prefer".toList ≠ kTunnelDnsStrict := by decide

/-- Without Strict the same tunnels are announced. -/
theorem addHop_withoutStrict (opts : hopChainOptions) (tags : VpnTags) (idx : ℕ)
    (hop : Option Tunnel) :
    addHop opts { tags with vpnStrictTag := [] } idx (hop.map Tunnel.withoutStrict) =
      { addHop opts tags idx hop with vpnStrictTag := [] } := by
  cases hop with
  | none => rfl
  | some tunnel =>
    have hnone : tunnel.withoutStrict.tunnel_dns ≠ kTunnelDnsNone ↔
        tunnel.tunnel_dns ≠ kTunnelDnsNone := by
      unfold Tunnel.withoutStrict
      split
      · rename_i hstrict
        rw [hstrict]
        exact iff_of_true none_ne_prefer (by decide)
      · rfl
    have hstrict : tunnel.withoutStrict.tunnel_dns ≠ kTunnelDnsStrict := by
      unfold Tunnel.withoutStrict
      split
      · exact strict_ne_prefer
      · assumption
    have htype : tunnel.withoutStrict.type = tunnel.type := by
      unfold Tunnel.withoutStrict
      split <;> rfl
    unfold addHop
    simp only [Option.map_some, hnone, htype, hstrict, false_and, if_false]
    split <;> rfl

theorem addHops_withoutStrict (opts : hopChainOptions) (hops : List (Option Tunnel)) :
    ∀ (tags : VpnTags) (idx : ℕ),
      addHops opts { tags with vpnStrictTag := [] } idx
          (hops.map (Option.map Tunnel.withoutStrict)) =
        { addHops opts tags idx hops with vpnStrictTag := [] } := by
  induction hops with
  | nil => exact fun _ _ => rfl
  | cons hop hops ih =>
    intro tags idx
    simp only [List.map_cons, addHops]
    rw [addHop_withoutStrict]
    exact ih (addHop opts tags idx hop) (idx + 1)

theorem tunnelTags_withoutStrict (chains : List (hopChainOptions × List (Option Tunnel))) :
    tunnelTags (withoutStrict chains) = { tunnelTags chains with vpnStrictTag := [] } := by
  have hfold (tags : VpnTags) :
      (withoutStrict chains).foldl (fun tags chain => addHops chain.1 tags 0 chain.2)
          { tags with vpnStrictTag := [] } =
        { chains.foldl (fun tags chain => addHops chain.1 tags 0 chain.2) tags with
          vpnStrictTag := [] } := by
    induction chains generalizing tags with
    | nil => rfl
    | cons chain chains ih =>
      unfold withoutStrict at ih ⊢
      rw [List.map_cons, List.foldl_cons, List.foldl_cons, addHops_withoutStrict]
      exact ih _
  exact hfold .empty

/-! ## The server of the remote queries -/

theorem remoteDnsTag_of_mem {ctx : DnsContext} {tags : VpnTags} (htest : ctx.forTest = false)
    (hmem : tags.vpnStrictTag ∈ keys tags.vpnEndpointTags) :
    remoteDnsTag ctx tags = vpnDnsTag tags.vpnStrictTag := by
  have hfold {endpoints : List (Text × TunnelType)} {remote : Text}
      (h : tags.vpnStrictTag ∈ keys endpoints ∨ remote = vpnDnsTag tags.vpnStrictTag) :
      endpoints.foldl (fun remote endpoint =>
        if endpoint.1 = tags.vpnStrictTag then vpnDnsTag endpoint.1 else remote) remote =
          vpnDnsTag tags.vpnStrictTag := by
    induction endpoints generalizing remote with
    | nil => exact h.resolve_left List.not_mem_nil
    | cons endpoint endpoints ih =>
      apply ih
      by_cases heq : endpoint.1 = tags.vpnStrictTag
      · right
        simp only [heq, if_true]
      · simp only [heq, if_false]
        refine h.imp_left fun hin => ?_
        exact (List.mem_cons.mp hin).resolve_left (Ne.symm heq)
  unfold remoteDnsTag
  rw [htest]
  exact hfold (.inl hmem)

theorem remoteDnsTag_of_notMem {ctx : DnsContext} {tags : VpnTags}
    (hmem : tags.vpnStrictTag ∉ keys tags.vpnEndpointTags) :
    remoteDnsTag ctx tags = dnsRemote := by
  have hfold {endpoints : List (Text × TunnelType)} (h : tags.vpnStrictTag ∉ keys endpoints) :
      endpoints.foldl (fun remote endpoint =>
        if endpoint.1 = tags.vpnStrictTag then vpnDnsTag endpoint.1 else remote) dnsRemote =
          dnsRemote := by
    induction endpoints with
    | nil => rfl
    | cons endpoint endpoints ih =>
      have hcons : tags.vpnStrictTag ≠ endpoint.1 ∧ tags.vpnStrictTag ∉ keys endpoints := by
        rw [← not_or]
        exact fun hin => h (List.mem_cons.mpr hin)
      rw [List.foldl_cons, if_neg (Ne.symm hcons.1)]
      exact ih hcons.2
  unfold remoteDnsTag
  split
  · rfl
  · exact hfold hmem

theorem vpnDnsTag_ne_dnsRemote (endpointTag : Text) : vpnDnsTag endpointTag ≠ dnsRemote := by
  unfold vpnDnsTag dnsVpnPrefix dnsRemote
  simp

theorem chainDnsTag_ne_dnsRemote (outboundTag : Text) : chainDnsTag outboundTag ≠ dnsRemote := by
  unfold chainDnsTag
  simp

theorem echTag_ne_dnsRemote (i : ℕ) : hopTag dnsEchPrefix i ≠ dnsRemote := by
  unfold hopTag dnsEchPrefix dnsRemote
  simp

/-! ## Rules that do not name dns-remote -/

def Clean (rules : List DnsRule) : Prop :=
  ∀ rule ∈ rules, rule.decision.server ≠ some dnsRemote

theorem clean_nil : Clean [] := fun _ h => absurd h List.not_mem_nil

theorem Clean.append {rules later : List DnsRule} (h : Clean rules) (hlater : Clean later) :
    Clean (rules ++ later) := fun rule hmem =>
  (List.mem_append.mp hmem).elim (h rule) (hlater rule)

theorem Clean.ite {c : Prop} [Decidable c] {rules later : List DnsRule} (h : Clean rules)
    (hlater : Clean later) : Clean (if c then rules else later) := by
  split
  · exact h
  · exact hlater

theorem clean_flatMap {α : Type*} {xs : List α} {f : α → List DnsRule}
    (h : ∀ x ∈ xs, Clean (f x)) : Clean (xs.flatMap f) := by
  intro rule hmem
  obtain ⟨x, hx, hrule⟩ := List.mem_flatMap.mp hmem
  exact h x hx rule hrule

theorem clean_routeTo {conditions : Conditions} {server : Text} (h : server ≠ dnsRemote) :
    Clean [routeTo conditions server] := by
  intro rule hmem
  rw [List.mem_singleton.mp hmem]
  exact fun heq => h (Option.some.inj heq)

theorem clean_predefined (conditions : Conditions) (rcode : Option Text) (answers : List Text) :
    Clean [⟨conditions, .predefined rcode answers⟩] := by
  intro rule hmem
  rw [List.mem_singleton.mp hmem]
  exact nofun

theorem clean_appendDnsRoute {conditions : Conditions} {server : Text} (h : server ≠ dnsRemote)
    (disableIPv6 : Bool) : Clean (appendDnsRoute conditions server disableIPv6) :=
  (Clean.ite (clean_predefined _ _ _) clean_nil).append (clean_routeTo h)

theorem clean_appendDnsRoutingRules {selectors : DomainSelectors} {server : Text}
    (h : server ≠ dnsRemote) (disableIPv6 : Bool) :
    Clean (appendDnsRoutingRules selectors server disableIPv6) :=
  (Clean.ite (clean_appendDnsRoute h _) clean_nil).append
    (Clean.ite (clean_appendDnsRoute h _) clean_nil)

theorem clean_appendProcessDnsRules {selectors : ProcessSelectors} {server : Text}
    (h : server ≠ dnsRemote) (disableIPv6 : Bool) :
    Clean (appendProcessDnsRules selectors server disableIPv6) :=
  clean_flatMap fun _ _ => Clean.ite clean_nil (clean_appendDnsRoute h _)

theorem clean_echRules (ctx : DnsContext) : Clean (echRules ctx) := by
  intro rule hmem
  unfold echRules at hmem
  rw [List.mem_reverse, List.mem_mapIdx] at hmem
  obtain ⟨i, hi, rfl⟩ := hmem
  exact fun heq => echTag_ne_dnsRemote i (Option.some.inj heq)

theorem clean_predefinedRules (ctx : DnsContext) : Clean (predefinedRules ctx) := by
  refine Clean.ite clean_nil (clean_flatMap fun entry _ rule hmem => ?_)
  have hfamily (domain type : Text) (addrs : List Text) :
      (emitFamily domain addrs type).decision.server = none := by
    unfold emitFamily
    simp only
    split <;> rfl
  simp only [List.mem_cons, List.not_mem_nil, or_false] at hmem
  rcases hmem with rfl | rfl <;> (rw [hfamily]; exact nofun)

theorem clean_headRules (ctx : DnsContext) (tags : VpnTags) :
    Clean (echRules ctx ++ predefinedRules ctx ++ hostsRules ctx ++ echQueryRules ctx ++
      tunnelRules ctx tags) := by
  refine ((((clean_echRules ctx).append (clean_predefinedRules ctx)).append
    (Clean.ite ?_ clean_nil)).append (Clean.ite (clean_routeTo (by decide)) clean_nil)).append
    (Clean.ite clean_nil ?_)
  · intro rule hmem
    rw [List.mem_singleton.mp hmem]
    decide
  · intro rule hmem
    obtain ⟨endpoint, -, rfl⟩ := List.mem_map.mp hmem
    exact fun heq => vpnDnsTag_ne_dnsRemote endpoint.1 (Option.some.inj heq)

theorem clean_tailscaleRules (ctx : DnsContext) : Clean (tailscaleRules ctx) := by
  unfold tailscaleRules
  refine Clean.ite ?_ clean_nil
  rw [← List.singleton_append]
  exact (clean_routeTo (by decide)).append (Clean.ite (clean_routeTo (by decide)) clean_nil)

/-- The rules between the head and the proxied sites. -/
theorem clean_middleRules (ctx : DnsContext) (deps : DNSDeps) :
    Clean (extraCoreRules ctx ++ fakeRules ctx ++ chainRules ctx deps ++ directRules ctx deps) := by
  refine (((Clean.ite (clean_appendDnsRoute (by decide) _) clean_nil).append
    (Clean.ite (clean_routeTo (by decide)) clean_nil)).append (Clean.ite clean_nil ?_)).append
    ((Clean.ite (clean_appendDnsRoutingRules (by decide) _) clean_nil).append
      (Clean.ite clean_nil (clean_appendProcessDnsRules (by decide) _)))
  exact clean_flatMap fun chain _ =>
    (clean_appendDnsRoutingRules (chainDnsTag_ne_dnsRemote chain.outboundTag) _).append
      (clean_appendProcessDnsRules (chainDnsTag_ne_dnsRemote chain.outboundTag) _)

/-! ## The substitution -/

/-- Another server in the place of dns-remote. -/
def DnsAction.redirect (server : Text) : DnsAction → DnsAction
  | .route remote disable_cache =>
    .route (if remote = dnsRemote then server else remote) disable_cache
  | .predefined rcode answers => .predefined rcode answers

theorem redirect_eq_self {server : Text} {action : DnsAction}
    (h : action.server ≠ some dnsRemote) : action.redirect server = action := by
  cases action with
  | route remote disable_cache =>
    unfold DnsAction.redirect
    simp only
    rw [if_neg fun heq => h (congrArg some heq)]
  | predefined rcode answers => rfl

theorem Clean.map_redirect {rules : List DnsRule} (h : Clean rules) (server : Text) :
    rules.map (Rule.map (DnsAction.redirect server)) = rules := by
  have hself : ∀ rule ∈ rules, Rule.map (DnsAction.redirect server) rule = rule := by
    intro rule hmem
    unfold Rule.map
    rw [redirect_eq_self (h rule hmem)]
  rw [List.map_congr_left hself, List.map_id']

theorem map_appendDnsRoute (server : Text) (conditions : Conditions) (disableIPv6 : Bool) :
    (appendDnsRoute conditions dnsRemote disableIPv6).map (Rule.map (DnsAction.redirect server)) =
      appendDnsRoute conditions server disableIPv6 := by
  unfold appendDnsRoute
  rw [List.map_append]
  congr 1
  split <;> rfl

theorem map_appendDnsRoutingRules (server : Text) (selectors : DomainSelectors)
    (disableIPv6 : Bool) :
    (appendDnsRoutingRules selectors dnsRemote disableIPv6).map
        (Rule.map (DnsAction.redirect server)) =
      appendDnsRoutingRules selectors server disableIPv6 := by
  unfold appendDnsRoutingRules
  rw [List.map_append]
  congr 1
  · split
    · exact map_appendDnsRoute server _ disableIPv6
    · rfl
  · split
    · exact map_appendDnsRoute server _ disableIPv6
    · rfl

theorem map_finalRules (server : Text) (ctx : DnsContext) :
    (finalRules ctx dnsRemote).map (Rule.map (DnsAction.redirect server)) =
      finalRules ctx server := by
  unfold finalRules
  split
  · exact (clean_appendDnsRoute (by decide) _).map_redirect server
  · exact map_appendDnsRoute server _ _

theorem map_proxySiteRules (server : Text) (ctx : DnsContext) (deps : DNSDeps) :
    (proxySiteRules ctx deps dnsRemote).map (Rule.map (DnsAction.redirect server)) =
      proxySiteRules ctx deps server := by
  unfold proxySiteRules
  split
  · exact map_appendDnsRoutingRules server _ _
  · rfl

/-- The process rules name dns-remote where there is a process at all. -/
theorem exists_remote_processRule {selectors : ProcessSelectors} (h : selectors.isEmpty = false)
    (disableIPv6 : Bool) :
    ∃ rule ∈ appendProcessDnsRules selectors dnsRemote disableIPv6,
      rule.decision.server = some dnsRemote := by
  have hfield (name : String) {values : List Text} (hne : values ≠ [])
      (hmem : (name, values) ∈ [("process_name", selectors.names),
        ("process_path", selectors.paths), ("process_path_regex", selectors.pathRegexes)]) :
      ∃ rule ∈ appendProcessDnsRules selectors dnsRemote disableIPv6,
        rule.decision.server = some dnsRemote := by
    refine ⟨routeTo [(name, .texts values)] dnsRemote, List.mem_flatMap.mpr ⟨_, hmem, ?_⟩, rfl⟩
    rw [if_neg hne]
    exact List.mem_append_right _ (List.mem_singleton_self _)
  unfold ProcessSelectors.isEmpty at h
  by_cases hnames : selectors.names = []
  · by_cases hpaths : selectors.paths = []
    · have hregexes : selectors.pathRegexes ≠ [] := by
        intro hnil
        simp [hnames, hpaths, hnil] at h
      exact hfield "process_path_regex" hregexes (by simp)
    · exact hfield "process_path" hpaths (by simp)
  · exact hfield "process_name" hnames (by simp)

/-! ## Strict -/

/-- **Strict tunnel DNS.**  The tunnel has its server, no rule of the section names dns-remote,
and the rules are those without Strict with that server in the place of dns-remote, so every
query is answered by it that would have gone to dns-remote. -/
structure StrictTunnelDns (ctx : DnsContext) (rules : List DnsRule) : Prop where
  server : ∃ type, (vpnDnsTag (tunnelTags ctx.chains).vpnStrictTag, type,
    (tunnelTags ctx.chains).vpnStrictTag, true) ∈ tunnelServers ctx (tunnelTags ctx.chains)
  clean : Clean rules
  substituted : ∃ plain, buildDNSSection ctx (tunnelTags (withoutStrict ctx.chains)) = some plain ∧
    rules = plain.map
      (Rule.map (DnsAction.redirect (vpnDnsTag (tunnelTags ctx.chains).vpnStrictTag))) ∧
    ∀ holds, Rule.answer holds rules = (Rule.answer holds plain).map
      (DnsAction.redirect (vpnDnsTag (tunnelTags ctx.chains).vpnStrictTag))

/-- The processes that the routing profile sends to the proxy. -/
def proxiedProcesses (ctx : DnsContext) : ProcessSelectors :=
  (dnsDeps ctx.dns.enable_dns_routing ctx.rules ctx.outboundMap).proxyProcess

theorem proxyProcessRules_eq_nil {ctx : DnsContext} {deps : DNSDeps}
    (h : ctx.dns.dns_final_out ≠ tagDirect ∨ deps.proxyProcess.isEmpty = true)
    (htest : ctx.forTest = false) : proxyProcessRules ctx deps = [] := by
  unfold proxyProcessRules useDirectFinalDNS
  rw [if_neg]
  rcases h with h | h <;> simp [h, htest]

/-- The rules of the section, around those that depend on the remote server. -/
theorem dnsRules_eq (ctx : DnsContext) (tags : VpnTags)
    (hprocess : proxyProcessRules ctx
      (dnsDeps ctx.dns.enable_dns_routing ctx.rules ctx.outboundMap) = []) :
    ∃ head, Clean head ∧
      (∀ tags' : VpnTags, tags'.vpnEndpointTags = tags.vpnEndpointTags →
        dnsRules ctx tags' = head ++
          (proxySiteRules ctx (dnsDeps ctx.dns.enable_dns_routing ctx.rules ctx.outboundMap)
            (remoteDnsTag ctx tags') ++ finalRules ctx (remoteDnsTag ctx tags'))) := by
  refine ⟨echRules ctx ++ predefinedRules ctx ++ hostsRules ctx ++ echQueryRules ctx ++
      tunnelRules ctx tags ++ (tailscaleRules ctx ++ (extraCoreRules ctx ++ fakeRules ctx ++
        chainRules ctx (dnsDeps ctx.dns.enable_dns_routing ctx.rules ctx.outboundMap) ++
        directRules ctx (dnsDeps ctx.dns.enable_dns_routing ctx.rules ctx.outboundMap))),
    (clean_headRules ctx tags).append ((clean_tailscaleRules ctx).append
      (clean_middleRules ctx _)), fun tags' hsame => ?_⟩
  have htunnels : tunnelRules ctx tags' = tunnelRules ctx tags := by
    unfold tunnelRules
    rw [hsame]
  unfold dnsRules
  simp only [hprocess, htunnels, List.append_assoc, List.append_nil]

theorem strict_of_section {ctx : DnsContext} (htest : ctx.forTest = false)
    (hstrict : (tunnelTags ctx.chains).vpnStrictTag ≠ []) {rules : List DnsRule}
    (hrules : buildDNSSection ctx (tunnelTags ctx.chains) = some rules)
    (hprocess : ctx.dns.dns_final_out ≠ tagDirect ∨ (proxiedProcesses ctx).isEmpty = true) :
    StrictTunnelDns ctx rules := by
  have hsound := tunnelTags_sound ctx.chains
  have hmem := hsound.strict hstrict
  have hremote := remoteDnsTag_of_mem htest hmem
  have hplain : remoteDnsTag ctx (tunnelTags (withoutStrict ctx.chains)) = dnsRemote := by
    rw [tunnelTags_withoutStrict]
    exact remoteDnsTag_of_notMem hsound.nonempty
  obtain ⟨head, hhead, heq⟩ := dnsRules_eq ctx (tunnelTags ctx.chains)
    (proxyProcessRules_eq_nil hprocess htest)
  have hstrictRules := heq (tunnelTags ctx.chains) rfl
  have hplainRules := heq (tunnelTags (withoutStrict ctx.chains)) (by
    rw [tunnelTags_withoutStrict])
  rw [hremote] at hstrictRules
  rw [hplain] at hplainRules
  unfold buildDNSSection at hrules
  split at hrules
  · cases hrules
  · rename_i hgenerated
    cases hrules
    have hsubst : dnsRules ctx (tunnelTags ctx.chains) =
        (dnsRules ctx (tunnelTags (withoutStrict ctx.chains))).map
          (Rule.map (DnsAction.redirect (vpnDnsTag (tunnelTags ctx.chains).vpnStrictTag))) := by
      rw [hstrictRules, hplainRules, List.map_append, List.map_append, hhead.map_redirect,
        map_proxySiteRules, map_finalRules]
    constructor
    · obtain ⟨endpoint, hendpoint, htag⟩ := List.mem_map.mp hmem
      refine ⟨endpoint.2, ?_⟩
      unfold tunnelServers
      rw [htest, if_neg Bool.false_ne_true, List.mem_map]
      exact ⟨endpoint, hendpoint, by simp [htag]⟩
    · rw [hstrictRules]
      have hne := vpnDnsTag_ne_dnsRemote (tunnelTags ctx.chains).vpnStrictTag
      refine hhead.append ((Clean.ite (clean_appendDnsRoutingRules hne _) clean_nil).append ?_)
      unfold finalRules
      split
      · exact clean_appendDnsRoute (by decide) _
      · exact clean_appendDnsRoute hne _
    · refine ⟨_, if_neg hgenerated, hsubst, fun holds => ?_⟩
      rw [hsubst, Rule.answer_map]

/-- **When Strict tunnel DNS takes every remote query.**  It does unless the final DNS is direct
and the routing profile sends a process to the proxy. -/
theorem strictTunnelDns_iff (ctx : DnsContext) (htest : ctx.forTest = false)
    (hstrict : (tunnelTags ctx.chains).vpnStrictTag ≠ []) :
    (∀ rules, buildDNSSection ctx (tunnelTags ctx.chains) = some rules →
        StrictTunnelDns ctx rules) ↔
      ctx.customObject = true ∨ ctx.dns.dns_final_out ≠ tagDirect ∨
        (proxiedProcesses ctx).isEmpty = true := by
  constructor
  · intro h
    by_contra hnot
    push Not at hnot
    obtain ⟨hcustom, hfinal, hprocesses⟩ := hnot
    have hclean := (h (dnsRules ctx (tunnelTags ctx.chains)) (if_neg hcustom)).clean
    obtain ⟨rule, hmem, hserver⟩ :=
      exists_remote_processRule (eq_false_of_ne_true hprocesses) ctx.dns.remote_dns_disable_ipv6
    refine hclean rule ?_ hserver
    have hin : rule ∈ proxyProcessRules ctx
        (dnsDeps ctx.dns.enable_dns_routing ctx.rules ctx.outboundMap) := by
      unfold proxyProcessRules useDirectFinalDNS
      rw [if_pos]
      · exact hmem
      · have hsome := eq_false_of_ne_true hprocesses
        unfold proxiedProcesses at hsome
        simp [htest, hfinal, hsome]
    unfold dnsRules
    exact List.mem_append_left _ (List.mem_append_right _ hin)
  · intro h rules hrules
    rcases h with hcustom | hprocess
    · unfold buildDNSSection at hrules
      rw [if_pos hcustom] at hrules
      cases hrules
    · exact strict_of_section htest hstrict hrules hprocess

/-- A start of a Strict tunnel, with these final DNS and proxied processes. -/
def strictStart (dns_final_out : Text) (processes : List Text) : DnsContext where
  forTest := false
  customObject := false
  dns := ⟨false, false, dns_final_out, true, false⟩
  rules := [⟨false, [], [], [], [], [], [], [], [], [], false, [], false, [], [], [], [],
    processes, [], [], [], [], [], false, proxyID, actionRoute⟩]
  outboundMap := []
  chains := [(⟨"chain".toList, true, 0, false, []⟩, [some ⟨.openvpn, kTunnelDnsStrict⟩])]
  isTailscale := false
  tailscale := false
  predefined := []
  dns_use_hosts := false
  extraCorePath := []
  echQueryNames := []
  echResolvers := []

/-- A program that is sent to the proxy, under a direct final DNS, asks dns-remote. -/
theorem strictStart_process_asksRemote :
    ¬ ∀ rules, buildDNSSection (strictStart tagDirect ["firefox".toList])
        (tunnelTags (strictStart tagDirect ["firefox".toList]).chains) = some rules →
      StrictTunnelDns (strictStart tagDirect ["firefox".toList]) rules := by
  intro h
  refine (h _ rfl).clean (routeTo [("process_name", .texts ["firefox".toList])] dnsRemote) ?_ rfl
  decide

/-- Under a remote final DNS the tunnel's server answers that program too. -/
theorem strictTunnelDns_iff_remoteFinal :
    StrictTunnelDns (strictStart tagProxy ["firefox".toList])
      (dnsRules (strictStart tagProxy ["firefox".toList])
        (tunnelTags (strictStart tagProxy ["firefox".toList]).chains)) :=
  (strictTunnelDns_iff _ rfl (by decide)).mpr (.inr (.inl (by decide))) _ rfl

end Throned.Configs
