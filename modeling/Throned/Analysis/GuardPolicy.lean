import Throned.Analysis.GuardMatches

/-!
# What the kill switch lets pass

The policy of the kill switch in words of packets, and that the two chains of `newRuleset` decide
every packet by it.
-/

set_option autoImplicit false

namespace Throned.Guard

open Library Library.Nft

/-! ## The policy -/

def lanPrefixes : List Prefix := lanPrefixes4 ++ lanPrefixes6

namespace Packet

variable {φ : Type*} (cfg : ParsedConfig) (p : Packet φ)

def Loopback : Prop := p.oif.map IfName.bytes = some (encode "lo".toList)

instance : Decidable p.Loopback := inferInstanceAs (Decidable (_ = _))

/-- A packet in or out of the tunnel. -/
def Tun : Prop := cfg.TunName ≠ [] ∧ (p.iif.map IfName.bytes = some (encode cfg.TunName) ∨
  p.oif.map IfName.bytes = some (encode cfg.TunName))

instance : Decidable (p.Tun cfg) := inferInstanceAs (Decidable (_ ∧ _))

/-- A packet in or out of a bridge, whose name is the configured one with an index. -/
def Bridge : Prop := cfg.BridgeName ≠ [] ∧ ((∃ i ∈ p.iif, encode cfg.BridgeName <+: i.bytes) ∨
  ∃ i ∈ p.oif, encode cfg.BridgeName <+: i.bytes)

instance : Decidable (p.Bridge cfg) := inferInstanceAs (Decidable (_ ∧ _))

def Dhcp : Prop :=
  (p.src.is4 = true ∧ p.proto = some IPPROTO_UDP ∧ p.sourcePort = some 68 ∧ p.destPort = some 67) ∨
    (p.src.is4 = false ∧ p.proto = some IPPROTO_UDP ∧ p.sourcePort = some 546 ∧
      p.destPort = some 547)

instance : Decidable p.Dhcp := inferInstanceAs (Decidable (_ ∨ _))

/-- Neighbour discovery and the reports of multicast listeners. -/
def Neighbour : Prop :=
  p.src.is4 = false ∧ p.proto = some IPPROTO_ICMPV6 ∧
    ((∃ n ∈ p.icmpType, 130 ≤ n ∧ n ≤ 137) ∨ p.icmpType = some 143)

instance : Decidable p.Neighbour := inferInstanceAs (Decidable (_ ∧ _))

def Igmp : Prop := p.src.is4 = true ∧ p.proto = some IPPROTO_IGMP

instance : Decidable p.Igmp := inferInstanceAs (Decidable (_ ∧ _))

/-- An answer of the API on a connection that a peer opened. -/
def ApiReply : Prop := cfg.APIPort ≠ 0 ∧ p.proto = some IPPROTO_TCP ∧
  p.sourcePort = some cfg.APIPort.toNat ∧ p.flow.any Prod.snd = true

instance : Decidable (p.ApiReply cfg) := inferInstanceAs (Decidable (_ ∧ _))

/-- A packet to a DNS port. -/
def Dns : Prop := (p.proto = some IPPROTO_TCP ∨ p.proto = some IPPROTO_UDP) ∧
  ∃ port ∈ lanDNSPorts, p.destPort = some port

instance : Decidable p.Dns := inferInstanceAs (Decidable (_ ∧ _))

def LanTraffic : Prop := cfg.AllowLAN = true ∧ InPrefixes lanPrefixes p.dst ∧ ¬ p.Dns

instance : Decidable (p.LanTraffic cfg) := inferInstanceAs (Decidable (_ ∧ _))

def Interfaces : Prop := p.Tun cfg ∨ p.Bridge cfg

instance : Decidable (p.Interfaces cfg) := inferInstanceAs (Decidable (_ ∨ _))

/-- A packet of a flow with the label. -/
def Labelled (labels : Bytes) : Prop := p.flow.isSome = true ∧ hasLabel ctLabel labels

instance (labels : Bytes) : Decidable (p.Labelled labels) := inferInstanceAs (Decidable (_ ∧ _))

/-- What passes before the groups of sockets are asked for. -/
def Early (labels : Bytes) : Prop := p.Loopback ∨ p.Interfaces cfg ∨ p.Labelled labels

instance (labels : Bytes) : Decidable (p.Early cfg labels) := inferInstanceAs (Decidable (_ ∨ _))

/-- The upkeep of the link, and answers of the API. -/
def Upkeep : Prop := p.Dhcp ∨ p.Neighbour ∨ p.Igmp ∨ p.ApiReply cfg

instance : Decidable (p.Upkeep cfg) := inferInstanceAs (Decidable (_ ∨ _))

/-- The verdict on a packet that leaves, and the labels of its flow behind it. -/
def postrouting (labels : Bytes) : Verdict × Bytes :=
  if p.Early cfg labels then (.accept, labels)
  else if p.gid = some GID then
    (.accept, if p.flow.isSome then List.zipWith (· ||| ·) labels ctLabel else labels)
  else if p.Upkeep cfg ∨ p.LanTraffic cfg then (.accept, labels)
  else (.drop, labels)

/-- The verdict on a packet that is forwarded. -/
def forward : Verdict :=
  if p.Interfaces cfg ∨ (InPrefixes lanPrefixes p.src ∧ p.LanTraffic cfg) then .accept else .drop

end Packet

/-! ## The rules of a chain -/

namespace Ruleset

variable (r : Ruleset) (chain : Chain)

@[simp] theorem chainRules_addSet (set : ElementSet) :
    (r.addSet set).chainRules chain = r.chainRules chain := rfl

@[simp] theorem chainRules_addChain (other : Chain) :
    (r.addChain other).chainRules chain = r.chainRules chain := rfl

theorem chainRules_add (other : Chain) (kind : Verdict) (parts : List (List Expr)) :
    (r.add other kind parts).chainRules chain =
      r.chainRules chain ++ if other = chain then [parts.flatten ++ [.verdict kind]] else [] := by
  unfold chainRules add
  by_cases h : other = chain
  · simp [List.filter_append, h]
  · simp [List.filter_append, h]

@[simp] theorem chainRules_accept_self (parts : List (List Expr)) :
    (r.accept chain parts).chainRules chain =
      r.chainRules chain ++ [parts.flatten ++ [.verdict .accept]] := by
  rw [accept, chainRules_add, if_pos rfl]

theorem chainRules_accept_ite (c : Prop) [Decidable c] (parts : List (List Expr)) :
    (if c then r.accept chain parts else r).chainRules chain =
      r.chainRules chain ++ if c then [parts.flatten ++ [.verdict .accept]] else [] := by
  split
  · rw [chainRules_accept_self]
  · rw [List.append_nil]

@[simp] theorem chainRules_drop_self (parts : List (List Expr)) :
    (r.drop chain parts).chainRules chain =
      r.chainRules chain ++ [parts.flatten ++ [.verdict .drop]] := by
  rw [drop, chainRules_add, if_pos rfl]

/-- The rules of the interfaces. -/
def interfaceRules (cfg : ParsedConfig) : List (List Expr) :=
  (if cfg.TunName ≠ [] then
    [matchIfname .IIFNAME (encode cfg.TunName) ++ [.verdict .accept],
      matchIfname .OIFNAME (encode cfg.TunName) ++ [.verdict .accept]] else []) ++
  if cfg.BridgeName ≠ [] then
    [matchMeta .IIFNAME (encode cfg.BridgeName) ++ [.verdict .accept],
      matchMeta .OIFNAME (encode cfg.BridgeName) ++ [.verdict .accept]] else []

@[simp] theorem chainRules_interfaces_self (cfg : ParsedConfig) :
    (r.interfaces chain cfg).chainRules chain = r.chainRules chain ++ interfaceRules cfg := by
  unfold interfaces interfaceRules
  by_cases htun : cfg.TunName = []
  · by_cases hbridge : cfg.BridgeName = []
    · simp [htun, hbridge]
    · simp [htun, hbridge]
  · by_cases hbridge : cfg.BridgeName = []
    · simp [htun, hbridge]
    · simp [htun, hbridge]

/-- The drops of a family. -/
def dropRules (dnsPorts : ElementSet) (family : LanFamily) : List (List Expr) :=
  [IPPROTO_TCP, IPPROTO_UDP].map fun proto =>
    matchMeta .NFPROTO [family.nfproto] ++ (matchMeta .L4PROTO [proto] ++
      (matchSet .transport 2 2 dnsPorts ++
        matchSet .network family.daddr family.addrLen family.set)) ++ [.verdict .drop]

/-- The permit of a family. -/
def acceptRule (forwarded : Bool) (family : LanFamily) : List Expr :=
  matchMeta .NFPROTO [family.nfproto] ++
    ((if forwarded then matchSet .network family.saddr family.addrLen family.set else []) ++
      matchSet .network family.daddr family.addrLen family.set) ++ [.verdict .accept]

@[simp] theorem chainRules_lan_self (families : List LanFamily) (dnsPorts : ElementSet)
    (forwarded : Bool) :
    (r.lan chain families dnsPorts forwarded).chainRules chain =
      r.chainRules chain ++ families.flatMap (dropRules dnsPorts) ++
        families.map (acceptRule forwarded) := by
  have hdrops : ∀ (families : List LanFamily) (r : Ruleset),
      (families.foldl (lanDrops chain dnsPorts) r).chainRules chain =
        r.chainRules chain ++ families.flatMap (dropRules dnsPorts) := by
    intro families
    induction families with
    | nil => intro r; simp
    | cons family families ih =>
      intro r
      rw [List.foldl_cons, ih]
      simp [lanDrops, dropRules]
  have haccepts : ∀ (families : List LanFamily) (r : Ruleset),
      (families.foldl (lanAccept chain forwarded) r).chainRules chain =
        r.chainRules chain ++ families.map (acceptRule forwarded) := by
    intro families
    induction families with
    | nil => intro r; simp
    | cons family families ih =>
      intro r
      rw [List.foldl_cons, ih]
      cases forwarded
      · simp [lanAccept, acceptRule]
      · simp [lanAccept, acceptRule]
  rw [lan, haccepts, hdrops]

variable {chain}

theorem chainRules_accept_ne {other : Chain} (h : other ≠ chain) (parts : List (List Expr)) :
    (r.accept other parts).chainRules chain = r.chainRules chain := by
  rw [accept, chainRules_add, if_neg h, List.append_nil]

theorem chainRules_accept_ite_ne {other : Chain} (h : other ≠ chain) (c : Prop) [Decidable c]
    (parts : List (List Expr)) :
    (if c then r.accept other parts else r).chainRules chain = r.chainRules chain := by
  split
  · exact r.chainRules_accept_ne h parts
  · rfl

theorem chainRules_drop_ne {other : Chain} (h : other ≠ chain) (parts : List (List Expr)) :
    (r.drop other parts).chainRules chain = r.chainRules chain := by
  rw [drop, chainRules_add, if_neg h, List.append_nil]

theorem chainRules_interfaces_ne {other : Chain} (h : other ≠ chain) (cfg : ParsedConfig) :
    (r.interfaces other cfg).chainRules chain = r.chainRules chain := by
  unfold interfaces
  split
  · split
    · simp only [chainRules_accept_ne _ h]
    · simp only [chainRules_accept_ne _ h]
  · split
    · simp only [chainRules_accept_ne _ h]
    · rfl

theorem chainRules_lan_ne {other : Chain} (h : other ≠ chain) (families : List LanFamily)
    (dnsPorts : ElementSet) (forwarded : Bool) :
    (r.lan other families dnsPorts forwarded).chainRules chain = r.chainRules chain := by
  unfold lan
  have hdrops := List.foldlRecOn (motive := fun r' => r'.chainRules chain = r.chainRules chain)
    families (lanDrops other dnsPorts) rfl fun r' hr' family _ => by
      simp [lanDrops, chainRules_drop_ne _ h, hr']
  exact List.foldlRecOn (motive := fun r' => r'.chainRules chain = r.chainRules chain)
    families (lanAccept other forwarded) hdrops fun r' hr' family _ => by
      rw [lanAccept, chainRules_accept_ne _ h, hr']

end Ruleset

namespace Packet

variable {φ : Type*} (order : Endian) (p : Packet φ) {cfg : ParsedConfig}

/-! ## Interfaces -/

theorem gives_tun (hname : cfg.TunName ≠ []) : Gives (p.view order) .accept
    [matchIfname .IIFNAME (encode cfg.TunName) ++ [.verdict .accept],
      matchIfname .OIFNAME (encode cfg.TunName) ++ [.verdict .accept]] fun _ => p.Tun cfg := by
  have hin := (p.matches_ifname order .IIFNAME p.iif rfl
    cfg.tunName_valid).gives .accept
  have hout := (p.matches_ifname order .OIFNAME p.oif rfl
    cfg.tunName_valid).gives .accept
  exact (hin.append hout).congr fun labels => by simp [Tun, hname]

theorem gives_bridge (hname : cfg.BridgeName ≠ []) : Gives (p.view order) .accept
    [matchMeta .IIFNAME (encode cfg.BridgeName) ++ [.verdict .accept],
      matchMeta .OIFNAME (encode cfg.BridgeName) ++ [.verdict .accept]] fun _ => p.Bridge cfg := by
  have hin := (p.matches_ifstart order .IIFNAME p.iif rfl
    cfg.bridgeName_valid).gives .accept
  have hout := (p.matches_ifstart order .OIFNAME p.oif rfl
    cfg.bridgeName_valid).gives .accept
  exact (hin.append hout).congr fun labels => by simp [Bridge, hname]

theorem gives_interfaces (cfg : ParsedConfig) :
    Gives (p.view order) .accept (Ruleset.interfaceRules cfg) fun _ => p.Interfaces cfg := by
  unfold Ruleset.interfaceRules
  refine Gives.congr ((?_ : Gives (p.view order) .accept _ fun _ => p.Tun cfg).append
    (?_ : Gives (p.view order) .accept _ fun _ => p.Bridge cfg)) fun labels => Iff.rfl
  · by_cases hname : cfg.TunName = []
    · rw [if_neg (not_not.mpr hname)]
      exact (Gives.nil .accept).congr fun labels => by simp [Tun, hname]
    · rw [if_pos hname]
      exact p.gives_tun order hname
  · by_cases hname : cfg.BridgeName = []
    · rw [if_neg (not_not.mpr hname)]
      exact (Gives.nil .accept).congr fun labels => by simp [Bridge, hname]
    · rw [if_pos hname]
      exact p.gives_bridge order hname

/-! ## Local networks -/

theorem load_append (a b c : Bytes) {offset len : ℕ} (ha : a.length = offset)
    (hb : b.length = len) : load (a ++ b ++ c) offset len = some b := by
  subst ha hb
  unfold load
  rw [if_pos (by simp only [List.length_append]; omega)]
  simp

theorem length_asSlice_family (a : Addr) : a.asSlice.length = if a.is4 then 4 else 16 := by
  cases a with
  | v4 value => simp [Addr.bitLen, Addr.is4]
  | v6 high low => simp [Addr.bitLen, Addr.is4]

/-- One of the two families that LAN rules are for, with the set of its prefixes. -/
structure IsFamily (is4 : Bool) (prefixes : List Prefix) (family : LanFamily) : Prop where
  nfproto : family.nfproto = if is4 then NFPROTO_IPV4 else NFPROTO_IPV6
  saddr : family.saddr = if is4 then 12 else 8
  daddr : family.daddr = if is4 then 16 else 24
  addrLen : family.addrLen = if is4 then 4 else 16
  keyLength : family.set.keyLength = family.addrLen
  contains : ∀ addr : Addr, addr.is4 = is4 →
    (family.set.contains addr.asSlice = true ↔ InPrefixes prefixes addr)

section Family

variable {is4 : Bool} {prefixes : List Prefix} {family : LanFamily}
  (hfamily : IsFamily is4 prefixes family)

include hfamily

theorem matches_nfproto : Matches (p.view order) (matchMeta .NFPROTO [family.nfproto])
    fun _ => p.src.is4 = is4 := by
  rw [hfamily.nfproto]
  cases is4 with
  | false => exact p.matches_v6 order
  | true => exact p.matches_v4 order

theorem load_dst (hsrc : p.src.is4 = is4) :
    load ((p.view order).header .network) family.daddr family.addrLen = some p.dst.asSlice := by
  have hlead : (p.lead ++ p.src.asSlice).length = family.daddr := by
    rw [List.length_append, p.lead_length, length_asSlice_family, hfamily.daddr, hsrc]
    cases is4 <;> rfl
  have hdst : p.dst.asSlice.length = family.addrLen := by
    rw [length_asSlice_family, hfamily.addrLen, p.family_eq, hsrc]
  have hall := load_append (p.lead ++ p.src.asSlice) p.dst.asSlice [] hlead hdst
  rwa [List.append_nil] at hall

theorem load_src (hsrc : p.src.is4 = is4) :
    load ((p.view order).header .network) family.saddr family.addrLen = some p.src.asSlice := by
  refine load_append p.lead p.src.asSlice p.dst.asSlice ?_ ?_
  · rw [p.lead_length, hfamily.saddr, hsrc]
  · rw [length_asSlice_family, hfamily.addrLen, hsrc]

theorem matches_lookup (offset : ℕ) : Matches (p.view order)
    (matchSet .network offset family.addrLen family.set)
    fun _ => (load ((p.view order).header .network) offset family.addrLen).any
      family.set.contains = true := by
  have hset : Matches (p.view order) _ _ := Matches.lookup .network offset 1 family.set
  rwa [hfamily.keyLength] at hset

/-- The permit of a family. -/
theorem gives_accept (forwarded : Bool) : Gives (p.view order) .accept
    [Ruleset.acceptRule forwarded family]
    fun _ => p.src.is4 = is4 ∧ (forwarded = true → InPrefixes prefixes p.src) ∧
      InPrefixes prefixes p.dst := by
  have hproto := p.matches_nfproto order hfamily
  have hdst := p.matches_lookup order hfamily family.daddr
  unfold Ruleset.acceptRule
  cases forwarded with
  | false =>
    refine ((hproto.append hdst).gives .accept).congr fun labels => and_congr_right fun hsrc => ?_
    rw [p.load_dst order hfamily hsrc, Option.any_some,
      hfamily.contains _ (p.family_eq.trans hsrc)]
    simp
  | true =>
    have hsrcset := p.matches_lookup order hfamily family.saddr
    refine ((hproto.append (hsrcset.append hdst)).gives .accept).congr fun labels =>
      and_congr_right fun hsrc => ?_
    rw [p.load_dst order hfamily hsrc, p.load_src order hfamily hsrc, Option.any_some,
      Option.any_some, hfamily.contains _ hsrc, hfamily.contains _ (p.family_eq.trans hsrc)]
    simp

/-- The drops of a family. -/
theorem gives_drops {dnsPorts : ElementSet} (hports : Matches (p.view order)
      (matchSet .transport 2 2 dnsPorts) fun _ => ∃ port ∈ lanDNSPorts, p.destPort = some port) :
    Gives (p.view order) .drop (Ruleset.dropRules dnsPorts family)
      fun _ => p.src.is4 = is4 ∧ p.Dns ∧ InPrefixes prefixes p.dst := by
  have hproto := p.matches_nfproto order hfamily
  have hdst := p.matches_lookup order hfamily family.daddr
  have hone (proto : UInt8) : Gives (p.view order) .drop
      [matchMeta .NFPROTO [family.nfproto] ++ (matchMeta .L4PROTO [proto] ++
        (matchSet .transport 2 2 dnsPorts ++
          matchSet .network family.daddr family.addrLen family.set)) ++ [.verdict .drop]]
      fun _ => p.src.is4 = is4 ∧ p.proto = some proto ∧
        (∃ port ∈ lanDNSPorts, p.destPort = some port) ∧ InPrefixes prefixes p.dst := by
    refine ((hproto.append ((p.matches_proto order proto).append
      (hports.append hdst))).gives .drop).congr fun labels => and_congr_right fun hsrc => ?_
    rw [p.load_dst order hfamily hsrc, Option.any_some,
      hfamily.contains _ (p.family_eq.trans hsrc)]
  refine ((hone IPPROTO_TCP).append (hone IPPROTO_UDP)).congr fun labels => ?_
  rw [← and_or_left, ← or_and_right]
  exact and_congr_right fun _ => (and_assoc).symm

end Family

/-- The ports of DNS, as the set holds them. -/
theorem matches_dnsPorts {dnsPorts : ElementSet} (hports : dnsPorts =
      { keyLength := 2, elements := lanDNSPorts.map fun port => { key := beBytes 2 port } }) :
    Matches (p.view order) (matchSet .transport 2 2 dnsPorts)
      fun _ => ∃ port ∈ lanDNSPorts, p.destPort = some port := by
  have hset : Matches (p.view order) _ _ := Matches.lookup .transport 2 1 dnsPorts
  rw [show dnsPorts.keyLength = 2 by rw [hports]] at hset
  refine hset.congr fun labels => ?_
  have hsmall : ∀ port ∈ lanDNSPorts, port < 256 ^ 2 := by decide
  have hheader : (p.view order).header .transport = p.transport := rfl
  have hfield : ∀ port ∈ lanDNSPorts, (p.destPort = some port ↔
      load p.transport 2 2 = some (beBytes 2 port)) := fun port hport =>
    p.field_eq_some (hsmall port hport)
  rw [hheader, hports]
  unfold ElementSet.contains
  cases hload : load p.transport 2 2 with
  | none =>
    simp only [hload, reduceCtorEq, iff_false] at hfield
    simpa using hfield
  | some data =>
    simp only [hload, Option.some_inj] at hfield
    simp only [Option.any_some, Bool.false_eq_true, if_false, List.any_map, List.any_eq_true,
      Function.comp_apply, decide_eq_true_eq]
    exact exists_congr fun port => and_congr_right fun hport =>
      eq_comm.trans (hfield port hport).symm

/-! ## The other permits -/

theorem gives_loopback : Gives (p.view order) .accept
    [matchIfname .OIFNAME (encode "lo".toList) ++ [.verdict .accept]] fun _ => p.Loopback :=
  (p.matches_ifname order .OIFNAME p.oif rfl (by decide)).gives .accept

/-- The permits of `newRuleset` behind the one of the group. -/
def upkeepRules (cfg : ParsedConfig) : List (List Expr) :=
  [matchMeta .NFPROTO [NFPROTO_IPV4] ++ (matchMeta .L4PROTO [IPPROTO_UDP] ++
      (matchPort 0 68 ++ matchPort 2 67)) ++ [.verdict .accept],
    matchMeta .NFPROTO [NFPROTO_IPV6] ++ (matchMeta .L4PROTO [IPPROTO_UDP] ++
      (matchPort 0 546 ++ matchPort 2 547)) ++ [.verdict .accept],
    matchMeta .NFPROTO [NFPROTO_IPV6] ++ (matchMeta .L4PROTO [IPPROTO_ICMPV6] ++
      [loadPayload .transport 0 1, .range 1 [130] [137]]) ++ [.verdict .accept],
    matchMeta .NFPROTO [NFPROTO_IPV6] ++ (matchMeta .L4PROTO [IPPROTO_ICMPV6] ++
      [loadPayload .transport 0 1, cmpEq [143]]) ++ [.verdict .accept],
    matchMeta .NFPROTO [NFPROTO_IPV4] ++ matchMeta .L4PROTO [IPPROTO_IGMP] ++
      [.verdict .accept]] ++
  if cfg.APIPort ≠ 0 then
    [matchMeta .L4PROTO [IPPROTO_TCP] ++ (matchPort 0 cfg.APIPort.toNat ++ matchReply) ++
      [.verdict .accept]] else []

theorem gives_dhcp4 : Gives (p.view order) .accept
    [matchMeta .NFPROTO [NFPROTO_IPV4] ++ (matchMeta .L4PROTO [IPPROTO_UDP] ++
      (matchPort 0 68 ++ matchPort 2 67)) ++ [.verdict .accept]]
    fun _ => p.src.is4 = true ∧ p.proto = some IPPROTO_UDP ∧ p.sourcePort = some 68 ∧
      p.destPort = some 67 :=
  ((p.matches_v4 order).append ((p.matches_proto order IPPROTO_UDP).append
    ((p.matches_port order 0 68 (by decide)).append
      (p.matches_port order 2 67 (by decide))))).gives .accept

theorem gives_dhcp6 : Gives (p.view order) .accept
    [matchMeta .NFPROTO [NFPROTO_IPV6] ++ (matchMeta .L4PROTO [IPPROTO_UDP] ++
      (matchPort 0 546 ++ matchPort 2 547)) ++ [.verdict .accept]]
    fun _ => p.src.is4 = false ∧ p.proto = some IPPROTO_UDP ∧ p.sourcePort = some 546 ∧
      p.destPort = some 547 :=
  ((p.matches_v6 order).append ((p.matches_proto order IPPROTO_UDP).append
    ((p.matches_port order 0 546 (by decide)).append
      (p.matches_port order 2 547 (by decide))))).gives .accept

theorem gives_discovery : Gives (p.view order) .accept
    [matchMeta .NFPROTO [NFPROTO_IPV6] ++ (matchMeta .L4PROTO [IPPROTO_ICMPV6] ++
      [loadPayload .transport 0 1, .range 1 [130] [137]]) ++ [.verdict .accept]]
    fun _ => p.src.is4 = false ∧ p.proto = some IPPROTO_ICMPV6 ∧
      ∃ n ∈ p.icmpType, 130 ≤ n ∧ n ≤ 137 :=
  ((p.matches_v6 order).append ((p.matches_proto order IPPROTO_ICMPV6).append
    (p.matches_icmpRange order 130 137))).gives .accept

theorem gives_listener : Gives (p.view order) .accept
    [matchMeta .NFPROTO [NFPROTO_IPV6] ++ (matchMeta .L4PROTO [IPPROTO_ICMPV6] ++
      [loadPayload .transport 0 1, cmpEq [143]]) ++ [.verdict .accept]]
    fun _ => p.src.is4 = false ∧ p.proto = some IPPROTO_ICMPV6 ∧ p.icmpType = some 143 :=
  ((p.matches_v6 order).append ((p.matches_proto order IPPROTO_ICMPV6).append
    (p.matches_icmp order 143))).gives .accept

theorem gives_igmp : Gives (p.view order) .accept
    [matchMeta .NFPROTO [NFPROTO_IPV4] ++ matchMeta .L4PROTO [IPPROTO_IGMP] ++
      [.verdict .accept]] fun _ => p.Igmp :=
  ((p.matches_v4 order).append (p.matches_proto order IPPROTO_IGMP)).gives .accept

theorem gives_api (cfg : ParsedConfig) : Gives (p.view order) .accept
    (if cfg.APIPort ≠ 0 then
      [matchMeta .L4PROTO [IPPROTO_TCP] ++ (matchPort 0 cfg.APIPort.toNat ++ matchReply) ++
        [.verdict .accept]] else []) fun _ => p.ApiReply cfg := by
  by_cases hport : cfg.APIPort = 0
  · rw [if_neg (not_not.mpr hport)]
    exact (Gives.nil .accept).congr fun labels => by simp [ApiReply, hport]
  · rw [if_pos hport]
    have hrule := ((p.matches_proto order IPPROTO_TCP).append
      ((p.matches_port order 0 cfg.APIPort.toNat cfg.APIPort.toNat_lt).append
        (p.matches_reply order))).gives .accept
    exact hrule.congr fun labels => by simp [ApiReply, hport, sourcePort]

theorem gives_upkeep (cfg : ParsedConfig) :
    Gives (p.view order) .accept (upkeepRules cfg) fun _ => p.Upkeep cfg := by
  have hall := ((p.gives_dhcp4 order).append ((p.gives_dhcp6 order).append
    ((p.gives_discovery order).append ((p.gives_listener order).append
      (p.gives_igmp order))))).append (p.gives_api order cfg)
  refine hall.congr fun labels => ?_
  simp only [Upkeep, Dhcp, Neighbour, and_or_left, or_assoc]

end Packet

/-! ## The ruleset -/

section Ruleset

variable {φ : Type*} {ipSet : IPSet} {order : Endian} {cfg : ParsedConfig} {sets : LanSets}
  {r : Ruleset}

/-- The sets of both families hold what their prefixes hold. -/
theorem lanSets_ok (hallow : cfg.AllowLAN = true)
    (hranges4 : ∀ ranges, ipSet lanPrefixes4 = .ok ranges → RangesOf lanPrefixes4 ranges)
    (hranges6 : ∀ ranges, ipSet lanPrefixes6 = .ok ranges → RangesOf lanPrefixes6 ranges)
    (h : lanSets ipSet cfg = .ok sets) :
    ∃ family4 family6, sets.families = [family4, family6] ∧
      Packet.IsFamily true lanPrefixes4 family4 ∧ Packet.IsFamily false lanPrefixes6 family6 ∧
      sets.dnsPorts =
        { keyLength := 2, elements := lanDNSPorts.map fun port => { key := beBytes 2 port } } := by
  unfold lanSets at h
  rw [if_pos hallow] at h
  obtain ⟨elems4, helems4, h⟩ := ok_of_bind h
  obtain ⟨elems6, helems6, h⟩ := ok_of_bind h
  rw [← Except.ok.inj h]
  have hall4 : ∀ q ∈ lanPrefixes4, q.addr.is4 = true := by decide
  have hall6 : ∀ q ∈ lanPrefixes6, q.addr.is4 = false := by decide
  refine ⟨_, _, rfl, ?_, ?_, rfl⟩
  · exact ⟨rfl, rfl, rfl, rfl, rfl, fun addr haddr =>
      contains_prefixElements hall4 hranges4 helems4 4 haddr⟩
  · exact ⟨rfl, rfl, rfl, rfl, rfl, fun addr haddr =>
      contains_prefixElements hall6 hranges6 helems6 16 haddr⟩

theorem chainRules_sets (sets : LanSets) (chain : Chain) : (if cfg.AllowLAN then
      (sets.families.foldl (fun (r : Ruleset) family => r.addSet family.set) {}).addSet
        sets.dnsPorts else {} : Ruleset).chainRules chain = [] := by
  split
  · exact List.foldlRecOn (motive := fun r : Ruleset => r.chainRules chain = []) sets.families _
      rfl fun r hr family _ => hr
  · rfl

/-- The rules of the chain for packets that leave. -/
theorem chainRules_postrouting (sets : LanSets) :
    (chainsOver order cfg sets).chainRules .postrouting =
      [matchIfname .OIFNAME (encode "lo".toList) ++ [.verdict .accept]] ++
        Ruleset.interfaceRules cfg ++ [matchLabel ++ [.verdict .accept]] ++
        [matchMeta .SKGID (order.putUint32 GID) ++ (setLabel ++ [.verdict .accept])] ++
        Packet.upkeepRules cfg ++ sets.families.flatMap (Ruleset.dropRules sets.dnsPorts) ++
        sets.families.map (Ruleset.acceptRule false) := by
  have hne : Chain.forward ≠ Chain.postrouting := by decide
  simp only [chainsOver, Ruleset.chainRules_lan_ne _ hne, Ruleset.chainRules_interfaces_ne _ hne,
    Ruleset.chainRules_addChain, Ruleset.chainRules_lan_self, Ruleset.chainRules_accept_ite,
    Ruleset.chainRules_accept_self, Ruleset.chainRules_interfaces_self, chainRules_sets]
  simp [Packet.upkeepRules]

/-- The rules of the chain for packets that are forwarded. -/
theorem chainRules_forward (sets : LanSets) :
    (chainsOver order cfg sets).chainRules .forward =
      Ruleset.interfaceRules cfg ++ sets.families.flatMap (Ruleset.dropRules sets.dnsPorts) ++
        sets.families.map (Ruleset.acceptRule true) := by
  have hne : Chain.postrouting ≠ Chain.forward := by decide
  simp only [chainsOver, Ruleset.chainRules_lan_ne _ hne, Ruleset.chainRules_interfaces_ne _ hne,
    Ruleset.chainRules_addChain, Ruleset.chainRules_lan_self,
    Ruleset.chainRules_accept_ite_ne _ hne, Ruleset.chainRules_accept_ne _ hne,
    Ruleset.chainRules_interfaces_self, chainRules_sets, List.nil_append]

/-- What the library promises about the two lists of prefixes. -/
structure LanRanges (ipSet : IPSet) : Prop where
  ranges4 : ∀ ranges, ipSet lanPrefixes4 = .ok ranges → RangesOf lanPrefixes4 ranges
  ranges6 : ∀ ranges, ipSet lanPrefixes6 = .ok ranges → RangesOf lanPrefixes6 ranges

theorem inPrefixes_lanPrefixes (addr : Addr) : InPrefixes lanPrefixes addr ↔
    (addr.is4 = true ∧ InPrefixes lanPrefixes4 addr) ∨
      (addr.is4 = false ∧ InPrefixes lanPrefixes6 addr) := by
  have hall4 : ∀ q ∈ lanPrefixes4, q.addr.is4 = true := by decide
  have hall6 : ∀ q ∈ lanPrefixes6, q.addr.is4 = false := by decide
  constructor
  · rintro ⟨q, hq, hhost⟩
    have hfamily := (Prefix.mem_hosts.mp hhost).1
    obtain hq | hq := List.mem_append.mp hq
    · exact .inl ⟨hfamily.trans (hall4 q hq), q, hq, hhost⟩
    · exact .inr ⟨hfamily.trans (hall6 q hq), q, hq, hhost⟩
  · rintro (⟨-, q, hq, hhost⟩ | ⟨-, q, hq, hhost⟩)
    · exact ⟨q, List.mem_append_left _ hq, hhost⟩
    · exact ⟨q, List.mem_append_right _ hq, hhost⟩

/-- The LAN rules: DNS towards LAN is dropped, then the rest of it passes. -/
theorem gives_lan (hlan : LanRanges ipSet) (hsets : lanSets ipSet cfg = .ok sets)
    (p : Packet φ) (order : Endian) (forwarded : Bool) :
    Gives (p.view order) .drop (sets.families.flatMap (Ruleset.dropRules sets.dnsPorts))
        (fun _ => cfg.AllowLAN = true ∧ p.Dns ∧ InPrefixes lanPrefixes p.dst) ∧
      Gives (p.view order) .accept (sets.families.map (Ruleset.acceptRule forwarded))
        (fun _ => cfg.AllowLAN = true ∧ (forwarded = true → InPrefixes lanPrefixes p.src) ∧
          InPrefixes lanPrefixes p.dst) := by
  cases hallow : cfg.AllowLAN with
  | false =>
    have hnone : sets.families = [] := by
      unfold lanSets at hsets
      rw [if_neg (by simp [hallow])] at hsets
      rw [← Except.ok.inj hsets]
    rw [hnone]
    exact ⟨(Gives.nil .drop).congr (by simp), (Gives.nil .accept).congr (by simp)⟩
  | true =>
    obtain ⟨family4, family6, hfamilies, h4, h6, hports⟩ :=
      lanSets_ok hallow hlan.ranges4 hlan.ranges6 hsets
    have hdns := p.matches_dnsPorts order hports
    rw [hfamilies]
    have hdst : p.dst.is4 = p.src.is4 := p.family_eq
    constructor
    · refine ((p.gives_drops order h4 hdns).append (p.gives_drops order h6 hdns)).congr
        fun labels => ?_
      rw [inPrefixes_lanPrefixes, hdst]
      cases p.src.is4 <;> simp
    · refine ((p.gives_accept order h4 forwarded).append
        (p.gives_accept order h6 forwarded)).congr fun labels => ?_
      rw [inPrefixes_lanPrefixes, inPrefixes_lanPrefixes, hdst]
      cases p.src.is4 <;> simp

/-- **The chain for leaving packets is the policy**, with its labels. -/
theorem newRuleset_postrouting (hlan : LanRanges ipSet) (h : newRuleset ipSet order cfg = .ok r)
    (p : Packet φ) (labels : Bytes) :
    runChain (p.view order) .drop (r.chainRules .postrouting) labels = p.postrouting cfg labels := by
  obtain ⟨sets, hsets, rfl⟩ := ok_of_map h
  obtain ⟨hdrop, haccept⟩ := gives_lan hlan hsets p order false
  have hearly := ((p.gives_loopback order).append (p.gives_interfaces order cfg)).append
    ((p.matches_label order).gives .accept)
  have hgid := ((p.matches_gid order).setLabel 1 ctLabel .accept).settles
  have hall := (((Settles.append hearly hgid).append (p.gives_upkeep order cfg)).append
    hdrop).append haccept
  rw [chainRules_postrouting]
  refine (hall.runChain_eq .drop labels).trans ?_
  unfold Packet.postrouting
  by_cases hfirst : p.Early cfg labels
  · have hfirst' : (p.Loopback ∨ p.Interfaces cfg) ∨
        p.flow.isSome = true ∧ hasLabel ctLabel labels := or_assoc.mpr hfirst
    simp [hfirst, hfirst']
  · have hfirst' : ¬ ((p.Loopback ∨ p.Interfaces cfg) ∨
        p.flow.isSome = true ∧ hasLabel ctLabel labels) := fun hor => hfirst (or_assoc.mp hor)
    by_cases hgroup : p.gid = some GID
    · simp [hfirst, hfirst', hgroup, Packet.view]
    · by_cases hup : p.Upkeep cfg
      · simp [hfirst, hfirst', hgroup, hup]
      · by_cases hlocal : cfg.AllowLAN = true ∧ InPrefixes lanPrefixes p.dst
        · by_cases hdns : p.Dns
          · simp [hfirst, hfirst', hgroup, hup, hdns, hlocal, Packet.LanTraffic]
          · simp [hfirst, hfirst', hgroup, hup, hdns, hlocal, Packet.LanTraffic]
        · have hnodrop : ¬ (cfg.AllowLAN = true ∧ p.Dns ∧ InPrefixes lanPrefixes p.dst) :=
            fun hall => hlocal ⟨hall.1, hall.2.2⟩
          have hnone : ¬ p.LanTraffic cfg := fun hall => hlocal ⟨hall.1, hall.2.1⟩
          simp [hfirst, hfirst', hgroup, hup, hlocal, hnodrop, hnone]

/-- The chain for forwarded packets is the policy; it has no labels. -/
theorem newRuleset_forward (hlan : LanRanges ipSet) (h : newRuleset ipSet order cfg = .ok r)
    (p : Packet φ) (labels : Bytes) :
    runChain (p.view order) .drop (r.chainRules .forward) labels = (p.forward cfg, labels) := by
  obtain ⟨sets, hsets, rfl⟩ := ok_of_map h
  obtain ⟨hdrop, haccept⟩ := gives_lan hlan hsets p order true
  have hall := (Settles.append (p.gives_interfaces order cfg) hdrop).append haccept
  rw [chainRules_forward]
  refine (hall.runChain_eq .drop labels).trans ?_
  unfold Packet.forward
  by_cases hifs : p.Interfaces cfg
  · simp [hifs]
  · by_cases hlocal : cfg.AllowLAN = true ∧ InPrefixes lanPrefixes p.dst
    · by_cases hdns : p.Dns
      · simp [hifs, hdns, hlocal, Packet.LanTraffic]
      · by_cases hsrc : InPrefixes lanPrefixes p.src
        · simp [hifs, hdns, hlocal, hsrc, Packet.LanTraffic]
        · simp [hifs, hdns, hlocal, hsrc, Packet.LanTraffic]
    · have hnodrop : ¬ (cfg.AllowLAN = true ∧ p.Dns ∧ InPrefixes lanPrefixes p.dst) :=
        fun hall => hlocal ⟨hall.1, hall.2.2⟩
      have hnopermit : ¬ (cfg.AllowLAN = true ∧ InPrefixes lanPrefixes p.src ∧
          InPrefixes lanPrefixes p.dst) := fun hall => hlocal ⟨hall.1, hall.2.2⟩
      have hnone : ¬ p.LanTraffic cfg := fun hall => hlocal ⟨hall.1, hall.2.1⟩
      simp [hifs, hnodrop, hnopermit, hnone]

/-- A packet that leaves passes by one of the permits, or by the label of its flow. -/
theorem postrouting_accept {p : Packet φ} {labels : Bytes} :
    (p.postrouting cfg labels).1 = .accept ↔
      p.Loopback ∨ p.Interfaces cfg ∨ p.gid = some GID ∨ p.Upkeep cfg ∨ p.LanTraffic cfg ∨
        p.Labelled labels := by
  unfold Packet.postrouting
  by_cases hearly : p.Early cfg labels
  · rw [if_pos hearly]
    unfold Packet.Early at hearly
    tauto
  · rw [if_neg hearly]
    unfold Packet.Early at hearly
    by_cases hgid : p.gid = some GID
    · rw [if_pos hgid]
      tauto
    · rw [if_neg hgid]
      by_cases hrest : p.Upkeep cfg ∨ p.LanTraffic cfg
      · rw [if_pos hrest]
        tauto
      · rw [if_neg hrest]
        simp only [reduceCtorEq, false_iff]
        tauto

theorem forward_accept {p : Packet φ} : p.forward cfg = .accept ↔
    p.Interfaces cfg ∨ (InPrefixes lanPrefixes p.src ∧ p.LanTraffic cfg) := by
  unfold Packet.forward
  split
  · rename_i hpass
    simp [hpass]
  · rename_i hpass
    simp [hpass]

/-- What the chain for forwarded packets lets pass is not stopped when it leaves. -/
theorem postrouting_of_forward {p : Packet φ} (h : p.forward cfg = .accept) (labels : Bytes) :
    (p.postrouting cfg labels).1 = .accept := by
  rw [postrouting_accept]
  obtain hifs | ⟨-, hlocal⟩ := forward_accept.mp h
  · exact .inr (.inl hifs)
  · exact .inr (.inr (.inr (.inr (.inl hlocal))))

end Ruleset

end Throned.Guard
