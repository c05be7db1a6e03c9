import Mathlib.Data.List.Infix
import Throned.Model.GuardRules

/-!
# What the matches of the kill switch see

A packet shows its interfaces, the addresses in its header, its transport bytes, the group of its
socket and its flow.  Every match of the rules is a question about one of these.
-/

set_option autoImplicit false

namespace Throned.Guard

open Library Library.Nft

/-! ## Names of interfaces -/

/-- The name of an interface, as the kernel allows it. -/
structure IfName where
  bytes : Bytes
  length_le : bytes.length ≤ 15
  nonzero : 0 ∉ bytes

theorem takeWhile_padName {size : ℕ} {name : Bytes} (hlength : name.length ≤ size)
    (hzero : 0 ∉ name) : (padName size name).takeWhile (· ≠ 0) = name := by
  have hall : ∀ b ∈ name, (decide (b ≠ 0)) = true := by
    intro b hb
    exact decide_eq_true fun heq => hzero (heq ▸ hb)
  unfold padName
  rw [List.take_of_length_le hlength, List.takeWhile_append_of_pos hall]
  cases size - name.length <;> simp [List.replicate_succ]

theorem length_padName {size : ℕ} {name : Bytes} (hlength : name.length ≤ size) :
    (padName size name).length = size := by
  unfold padName
  rw [List.length_append, List.take_of_length_le hlength, List.length_replicate]
  omega

theorem padName_inj {size : ℕ} {a b : Bytes} (ha : a.length ≤ size) (hb : b.length ≤ size)
    (hazero : 0 ∉ a) (hbzero : 0 ∉ b) : padName size a = padName size b ↔ a = b := by
  constructor
  · intro h
    rw [← takeWhile_padName ha hazero, h, takeWhile_padName hb hbzero]
  · rintro rfl
    rfl

/-- A comparison that covers only the start of a name. -/
theorem take_padName {size : ℕ} {a b : Bytes} (hb : b.length ≤ size)
    (hazero : 0 ∉ a) : (padName size b).take a.length = a ↔ a <+: b := by
  rw [← List.prefix_iff_eq_take.trans eq_comm]
  unfold padName
  rw [List.take_of_length_le hb]
  constructor
  · intro h
    obtain hshort | ⟨c, rfl⟩ := List.prefix_or_prefix_of_prefix h (List.prefix_append b _)
    · exact hshort
    · have hc : c <+: List.replicate (size - b.length) 0 := (List.prefix_append_right_inj b).mp h
      cases c with
      | nil => rw [List.append_nil]
      | cons x c =>
        have hx : x = 0 := List.eq_of_mem_replicate (hc.subset List.mem_cons_self)
        exact absurd (List.mem_append_right b (hx ▸ List.mem_cons_self)) hazero
  · intro h
    exact h.trans (List.prefix_append b _)

theorem zero_notMem_encode {name : Text} (h : ∀ c ∈ name, interfaceNameChar c = true) :
    0 ∉ encode name := by
  intro hzero
  obtain ⟨c, hc, hbyte⟩ := List.mem_flatMap.mp hzero
  obtain ⟨hascii, heq⟩ | ⟨-, hhigh⟩ := utf8EncodeChar_cases c
  · rw [heq] at hbyte
    have hnat : (UInt8.ofNat c.toNat).toNat = 0 := by
      rw [← List.mem_singleton.mp hbyte]
      rfl
    have hsmall : c.toNat = 0 := by
      rw [UInt8.toNat_ofNat'] at hnat
      omega
    have hchar := h c hc
    rw [show c = Char.ofNat 0 by rw [← Char.ofNat_toNat c, hsmall]] at hchar
    exact absurd hchar (by decide)
  · exact absurd (hhigh 0 hbyte) (by decide)

theorem ValidName.nonzero {maxLength : ℕ} {name : Text} (h : ValidName maxLength name) :
    0 ∉ encode name := zero_notMem_encode h.pattern

/-! ## Packets -/

/-- A packet at a hook; `φ` names the flows of the connection tracker. -/
structure Packet (φ : Type*) where
  iif : Option IfName
  oif : Option IfName
  src : Addr
  dst : Addr
  family_eq : dst.is4 = src.is4
  /-- The header in front of the two addresses. -/
  lead : Bytes
  lead_length : lead.length = if src.is4 then 12 else 8
  /-- The transport protocol; none for a packet that names none. -/
  proto : Option UInt8
  /-- The transport bytes; none are seen of a later fragment. -/
  transport : Bytes
  /-- The group of the socket that sent the packet, while there is such a socket. -/
  gid : Option ℕ
  gid_lt : ∀ g ∈ gid, g < 2 ^ 32
  /-- The flow that the packet belongs to, and whether it runs against its opener. -/
  flow : Option (φ × Bool)

namespace Packet

variable {φ : Type*}

def view (order : Endian) (p : Packet φ) : View where
  metaValue
    | .NFPROTO => some [if p.src.is4 then NFPROTO_IPV4 else NFPROTO_IPV6]
    | .L4PROTO => p.proto.map fun proto => [proto]
    | .IIFNAME => p.iif.map fun name => padName IFNAMSIZ name.bytes
    | .OIFNAME => p.oif.map fun name => padName IFNAMSIZ name.bytes
    | .SKGID => p.gid.map order.putUint32
  header
    | .network => p.lead ++ p.src.asSlice ++ p.dst.asSlice
    | .transport => p.transport
  direction := p.flow.map fun flow => if flow.2 then 1 else 0

/-- The number in some bytes of the transport header. -/
def field (p : Packet φ) (offset len : ℕ) : Option ℕ := (load p.transport offset len).map beNat

def sourcePort (p : Packet φ) : Option ℕ := p.field 0 2

def destPort (p : Packet φ) : Option ℕ := p.field 2 2

def icmpType (p : Packet φ) : Option ℕ := p.field 0 1

variable (order : Endian) (p : Packet φ)

/-! ## Matches -/

theorem matches_family (nfproto : UInt8) (h : nfproto = NFPROTO_IPV4 ∨ nfproto = NFPROTO_IPV6) :
    Matches (p.view order) (matchMeta .NFPROTO [nfproto])
      fun _ => p.src.is4 = decide (nfproto = NFPROTO_IPV4) := by
  refine (Matches.metaLoad .NFPROTO 1 [nfproto]).congr fun labels => ?_
  have hne : NFPROTO_IPV6 ≠ NFPROTO_IPV4 := by decide
  obtain rfl | rfl := h
  · cases hsrc : p.src.is4 <;> simp [view, hsrc, hne]
  · cases hsrc : p.src.is4 <;> simp [view, hsrc, hne, hne.symm]

theorem matches_v4 : Matches (p.view order) (matchMeta .NFPROTO [NFPROTO_IPV4])
    fun _ => p.src.is4 = true :=
  p.matches_family order NFPROTO_IPV4 (.inl rfl)

theorem matches_v6 : Matches (p.view order) (matchMeta .NFPROTO [NFPROTO_IPV6])
    fun _ => p.src.is4 = false :=
  p.matches_family order NFPROTO_IPV6 (.inr rfl)

theorem matches_proto (proto : UInt8) : Matches (p.view order) (matchMeta .L4PROTO [proto])
    fun _ => p.proto = some proto := by
  refine (Matches.metaLoad .L4PROTO 1 [proto]).congr fun labels => ?_
  cases hproto : p.proto with
  | none => simp [view, hproto]
  | some value => simp [view, hproto]

section Interfaces

variable (key : MetaKey) (value : Option IfName)

theorem matches_ifname (hkey : (p.view order).metaValue key =
    value.map fun name => padName IFNAMSIZ name.bytes) {name : Text} (h : ValidName 15 name) :
    Matches (p.view order) (matchIfname key (encode name))
      fun _ => value.map IfName.bytes = some (encode name) := by
  refine (Matches.metaLoad key 1 (padName IFNAMSIZ (encode name))).congr fun labels => ?_
  have hname : (encode name).length ≤ IFNAMSIZ := h.length_le.trans (by decide)
  rw [hkey]
  cases value with
  | none => simp
  | some value =>
    have hvalue : value.bytes.length ≤ IFNAMSIZ := value.length_le.trans (by decide)
    have hlength : (padName IFNAMSIZ value.bytes).length
        ≤ (padName IFNAMSIZ (encode name)).length := by
      rw [length_padName hname, length_padName hvalue]
    simp [List.take_of_length_le hlength, padName_inj hvalue hname value.nonzero h.nonzero]

/-- A name that is not padded matches every interface that starts with it. -/
theorem matches_ifstart (hkey : (p.view order).metaValue key =
    value.map fun name => padName IFNAMSIZ name.bytes) {name : Text} (h : ValidName 12 name) :
    Matches (p.view order) (matchMeta key (encode name))
      fun _ => ∃ i ∈ value, encode name <+: i.bytes := by
  refine (Matches.metaLoad key 1 (encode name)).congr fun labels => ?_
  rw [hkey]
  cases value with
  | none => simp
  | some value =>
    have hvalue : value.bytes.length ≤ IFNAMSIZ := value.length_le.trans (by decide)
    simp [take_padName hvalue h.nonzero]

end Interfaces

/-! ### Groups and flows -/

theorem putUint32_inj {m n : ℕ} (hm : m < 2 ^ 32) (hn : n < 2 ^ 32) :
    order.putUint32 m = order.putUint32 n ↔ m = n := by
  have hbytes : beBytes 4 m = beBytes 4 n ↔ m = n := by
    constructor
    · intro h
      rw [← beNat_beBytes (k := 4) (by omega : m < 256 ^ 4), h,
        beNat_beBytes (by omega : n < 256 ^ 4)]
    · rintro rfl
      rfl
  cases order with
  | little => exact (List.reverse_inj).trans hbytes
  | big => exact hbytes

@[simp] theorem length_putUint32 (n : ℕ) : (order.putUint32 n).length = 4 := by
  cases order with
  | little => exact (List.length_reverse).trans (length_beBytes 4 n)
  | big => exact length_beBytes 4 n

theorem matches_gid : Matches (p.view order) (matchMeta .SKGID (order.putUint32 GID))
    fun _ => p.gid = some GID := by
  refine (Matches.metaLoad .SKGID 1 (order.putUint32 GID)).congr fun labels => ?_
  cases hgid : p.gid with
  | none => simp [view, hgid]
  | some value =>
    have hlength : (order.putUint32 value).length ≤ 4 := by simp
    have hvalue := p.gid_lt value hgid
    simp [view, hgid, List.take_of_length_le hlength,
      putUint32_inj order hvalue (by decide : GID < 2 ^ 32)]

theorem matches_reply : Matches (p.view order) matchReply
    fun _ => p.flow.any Prod.snd = true := by
  refine (Matches.direction 1 ctDirectionReply).congr fun labels => ?_
  have hone : ctDirectionReply = 1 := rfl
  cases hflow : p.flow with
  | none => simp [view, hflow]
  | some flow => cases hreply : flow.2 <;> simp [view, hflow, hreply, hone]

theorem matches_label : Matches (p.view order) matchLabel
    fun labels => p.flow.isSome = true ∧ hasLabel ctLabel labels := by
  refine (Matches.label 1 ctLabel).congr fun labels => ?_
  simp [view]

/-! ### Transport -/

theorem field_eq_some {offset len n : ℕ} (h : n < 256 ^ len) :
    p.field offset len = some n ↔ load p.transport offset len = some (beBytes len n) := by
  unfold field
  constructor
  · intro hfield
    obtain ⟨data, hdata, hnat⟩ := Option.map_eq_some_iff.mp hfield
    have hlength : data.length = len := length_of_load hdata
    rw [hdata, beNat_inj (hlength.trans (length_beBytes len n).symm)
      (hnat.trans (beNat_beBytes h).symm)]
  · intro hload
    rw [hload, Option.map_some, beNat_beBytes h]

theorem matches_port (offset port : ℕ) (h : port < 2 ^ 16) :
    Matches (p.view order) (matchPort offset port) fun _ => p.field offset 2 = some port := by
  have hpayload : Matches (p.view order) _ _ :=
    Matches.payload .transport offset 1 (beBytes 2 port)
  rw [length_beBytes] at hpayload
  refine hpayload.congr fun labels => ?_
  exact (p.field_eq_some (by omega)).symm

theorem matches_icmp (n : UInt8) :
    Matches (p.view order) [loadPayload .transport 0 1, cmpEq [n]]
      fun _ => p.icmpType = some n.toNat := by
  refine (Matches.payload .transport 0 1 [n]).congr fun labels => ?_
  have hbytes : [n] = beBytes 1 n.toNat := by
    simp [beBytes]
  rw [icmpType, p.field_eq_some (by simpa using n.toNat_lt), ← hbytes]
  rfl

theorem matches_icmpRange (a b : UInt8) :
    Matches (p.view order) [loadPayload .transport 0 1, .range 1 [a] [b]]
      fun _ => ∃ n ∈ p.icmpType, a.toNat ≤ n ∧ n ≤ b.toNat := by
  refine (Matches.range .transport 0 1 [a] [b]).congr fun labels => ?_
  have hsingle (b : UInt8) : beNat [b] = b.toNat := by simp [beNat]
  unfold icmpType field
  cases hload : load p.transport 0 1 with
  | none => simp [view, hload]
  | some data => simp [view, hload, hsingle]

end Packet

/-! ## Sets of prefixes -/

theorem ok_of_bind {ε α β : Type*} {x : Except ε α} {f : α → Except ε β} {b : β}
    (h : x.bind f = .ok b) : ∃ a, x = .ok a ∧ f a = .ok b := by
  cases x with
  | error err => exact absurd h (by simp [Except.bind])
  | ok a => exact ⟨a, rfl, h⟩

theorem ok_of_map {ε α β : Type*} {x : Except ε α} {f : α → β} {b : β}
    (h : x.map f = .ok b) : ∃ a, x = .ok a ∧ f a = b := by
  cases x with
  | error err => exact absurd h (by simp [Except.map])
  | ok a => exact ⟨a, rfl, Except.ok.inj h⟩

theorem next_eq_none {a : Addr} : next a = none ↔ a.toNat + 1 = 2 ^ a.bitLen := by
  cases a with
  | v4 value =>
    have hvalue : value = BitVec.allOnes 32 ↔ value.toNat + 1 = 2 ^ 32 := by
      rw [← BitVec.toNat_inj, BitVec.toNat_allOnes]
      omega
    simp only [next, Addr.toNat, Addr.bitLen, ← hvalue]
    split <;> simp_all
  | v6 high low =>
    have hhigh : high = BitVec.allOnes 64 ↔ high.toNat + 1 = 2 ^ 64 := by
      rw [← BitVec.toNat_inj, BitVec.toNat_allOnes]
      omega
    have hlow : low = BitVec.allOnes 64 ↔ low.toNat + 1 = 2 ^ 64 := by
      rw [← BitVec.toNat_inj, BitVec.toNat_allOnes]
      omega
    have hhighlt := high.isLt
    have hlowlt := low.isLt
    simp only [next, Addr.toNat, Addr.bitLen, hhigh, hlow]
    split
    · split
      · simp only [true_iff]
        omega
      · simp only [reduceCtorEq, false_iff]
        omega
    · simp only [reduceCtorEq, false_iff]
      omega

theorem next_eq_some {a b : Addr} (h : next a = some b) :
    b.is4 = a.is4 ∧ b.toNat = a.toNat + 1 := by
  cases a with
  | v4 value =>
    simp only [next] at h
    split at h
    · exact absurd h (by simp)
    · rename_i hlast
      rw [← Option.some.inj h]
      refine ⟨rfl, ?_⟩
      rw [← BitVec.toNat_inj, BitVec.toNat_allOnes] at hlast
      have hlt := value.isLt
      have hone : (1 : BitVec 32).toNat = 1 := rfl
      simp only [Addr.toNat, BitVec.toNat_add, hone]
      omega
  | v6 high low =>
    have hhighlt := high.isLt
    have hlowlt := low.isLt
    have hone : (1 : BitVec 64).toNat = 1 := rfl
    have hzero : (0 : BitVec 64).toNat = 0 := rfl
    simp only [next] at h
    split at h
    · rename_i hlow
      split at h
      · exact absurd h (by simp)
      · rename_i hhigh
        rw [← Option.some.inj h]
        refine ⟨rfl, ?_⟩
        rw [← BitVec.toNat_inj, BitVec.toNat_allOnes] at hlow hhigh
        simp only [Addr.toNat, BitVec.toNat_add, hone, hzero]
        omega
    · rename_i hlow
      rw [← Option.some.inj h]
      refine ⟨rfl, ?_⟩
      rw [← BitVec.toNat_inj, BitVec.toNat_allOnes] at hlow
      simp only [Addr.toNat, BitVec.toNat_add, hone]
      omega

/-- What the library says about the ranges of a set: they cover the prefixes, each is of one
family, and they are sorted and as few as can be. -/
structure RangesOf (prefixes : List Prefix) (ranges : List (Addr × Addr)) : Prop where
  family_eq : ∀ rng ∈ ranges, rng.2.is4 = rng.1.is4
  le : ∀ rng ∈ ranges, rng.1.toNat ≤ rng.2.toNat
  sorted : ranges.Pairwise fun a b => a.1.is4 = b.1.is4 → a.2.toNat + 1 < b.1.toNat
  covers : ∀ addr : Addr, (∃ rng ∈ ranges, addr.is4 = rng.1.is4 ∧
    rng.1.toNat ≤ addr.toNat ∧ addr.toNat ≤ rng.2.toNat) ↔ ∃ p ∈ prefixes, addr ∈ p.hosts

/-- An address is in one of some prefixes. -/
def InPrefixes (prefixes : List Prefix) (addr : Addr) : Prop := ∃ p ∈ prefixes, addr ∈ p.hosts

instance (prefixes : List Prefix) (addr : Addr) : Decidable (InPrefixes prefixes addr) :=
  inferInstanceAs (Decidable (∃ p ∈ prefixes, addr ∈ p.hosts))

section Sets

variable {ipSet : IPSet} {prefixes : List Prefix} {elems : List Element}

/-- The bits of the addresses of a family. -/
def familyBits (is4 : Bool) : ℕ := if is4 then 32 else 128

theorem bitLen_eq (a : Addr) : a.bitLen = familyBits a.is4 := by cases a <;> rfl

theorem prefixElements_eq_rangeElements {is4 : Bool} {ranges : List (Addr × Addr)}
    (hfrom : ∀ rng ∈ ranges, rng.1.is4 = is4) (hto : ∀ rng ∈ ranges, rng.2.is4 = is4)
    (hset : ipSet prefixes = .ok ranges) (h : prefixElements ipSet prefixes = .ok elems) :
    elems = rangeElements (beBytes (familyBits is4 / 8)) (2 ^ familyBits is4 - 1)
      (ranges.map fun rng => (rng.1.toNat, rng.2.toNat)) := by
  unfold prefixElements at h
  rw [hset] at h
  rw [← Except.ok.inj h]
  unfold rangeElements
  rw [List.flatMap_map]
  refine List.flatMap_congr fun rng hrng => ?_
  have hslice (a : Addr) (ha : a.is4 = is4) :
      a.asSlice = beBytes (familyBits is4 / 8) a.toNat := by
    unfold Addr.asSlice
    rw [bitLen_eq, ha]
  have hpos := Nat.two_pow_pos (familyBits is4)
  have hlast := next_eq_none (a := rng.2)
  rw [bitLen_eq, hto rng hrng] at hlast
  rw [hslice rng.1 (hfrom rng hrng)]
  cases hnext : next rng.2 with
  | none =>
    have heq := hlast.mp hnext
    rw [if_pos (by omega)]
  | some stop =>
    obtain ⟨hfamily, hnat⟩ := next_eq_some hnext
    have hne : rng.2.toNat + 1 ≠ 2 ^ familyBits is4 := by
      rw [ne_eq, ← hlast, hnext]
      simp
    dsimp only
    rw [if_neg (by omega), hslice stop (hfamily.trans (hto rng hrng)), hnat]

/-- **A set of prefixes of one family holds exactly their addresses.** -/
theorem contains_prefixElements {is4 : Bool} (hfamily : ∀ p ∈ prefixes, p.addr.is4 = is4)
    (hranges : ∀ ranges, ipSet prefixes = .ok ranges → RangesOf prefixes ranges)
    (h : prefixElements ipSet prefixes = .ok elems) (keyLength : ℕ) {addr : Addr}
    (haddr : addr.is4 = is4) :
    ElementSet.contains { interval := true, keyLength, elements := elems } addr.asSlice = true ↔
      InPrefixes prefixes addr := by
  obtain ⟨ranges, hset, -⟩ := ok_of_bind h
  have hall := hranges ranges hset
  -- a range starts in a prefix, so it is of the family of the prefixes
  have hfrom : ∀ rng ∈ ranges, rng.1.is4 = is4 := by
    intro rng hrng
    obtain ⟨p, hp, hhost⟩ := (hall.covers rng.1).mp ⟨rng, hrng, rfl, le_rfl, hall.le rng hrng⟩
    exact (Prefix.mem_hosts.mp hhost).1.trans (hfamily p hp)
  have hto : ∀ rng ∈ ranges, rng.2.is4 = is4 := fun rng hrng =>
    (hall.family_eq rng hrng).trans (hfrom rng hrng)
  have hbound (a : Addr) (ha : a.is4 = is4) : a.toNat ≤ 2 ^ familyBits is4 - 1 := by
    have hlt := a.toNat_lt
    rw [bitLen_eq, ha] at hlt
    omega
  have hpow : 256 ^ (familyBits is4 / 8) = 2 ^ familyBits is4 := by
    cases is4 <;> rfl
  have hpos := Nat.two_pow_pos (familyBits is4)
  rw [prefixElements_eq_rangeElements hfrom hto hset h,
    contains_rangeElements (fun n hn => beNat_beBytes (by omega)) ?_ ?_ ?_ keyLength
      (by rw [Addr.beNat_asSlice]; exact hbound addr haddr)]
  · rw [Addr.beNat_asSlice]
    unfold InPrefixes
    rw [← hall.covers addr]
    constructor
    · rintro ⟨range, hrange, hlow, hhigh⟩
      obtain ⟨rng, hrng, rfl⟩ := List.mem_map.mp hrange
      exact ⟨rng, hrng, haddr.trans (hfrom rng hrng).symm, hlow, hhigh⟩
    · rintro ⟨rng, hrng, -, hlow, hhigh⟩
      exact ⟨_, List.mem_map_of_mem hrng, hlow, hhigh⟩
  · intro range hrange
    obtain ⟨rng, hrng, rfl⟩ := List.mem_map.mp hrange
    exact hall.le rng hrng
  · intro range hrange
    obtain ⟨rng, hrng, rfl⟩ := List.mem_map.mp hrange
    exact hbound rng.2 (hto rng hrng)
  · intro a ha b hb
    obtain ⟨x, hx, rfl⟩ := List.mem_map.mp ha
    obtain ⟨y, hy, rfl⟩ := List.mem_map.mp hb
    have hpair : ∀ x ∈ ranges, ∀ y ∈ ranges, x = y ∨
        x.2.toNat + 1 < y.1.toNat ∨ y.2.toNat + 1 < x.1.toNat := by
      refine fun x hx y hy => List.Pairwise.forall_of_forall_of_flip (R := fun x y => x = y ∨
        x.2.toNat + 1 < y.1.toNat ∨ y.2.toNat + 1 < x.1.toNat) (fun x _ => .inl rfl) ?_ ?_ hx hy
      · refine hall.sorted.imp_of_mem fun hx hy hlt => ?_
        exact .inr (.inl (hlt ((hfrom _ hx).trans (hfrom _ hy).symm)))
      · refine hall.sorted.imp_of_mem fun hx hy hlt => ?_
        exact .inr (.inr (hlt ((hfrom _ hx).trans (hfrom _ hy).symm)))
    obtain rfl | hapart := hpair x hx y hy
    · exact .inl rfl
    · exact .inr hapart

end Sets

end Throned.Guard
