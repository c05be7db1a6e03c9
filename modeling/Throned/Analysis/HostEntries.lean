import Throned.Analysis.NetworkText
import Throned.Analysis.ProbeOutcomes
import Throned.Model.ScanWorker

/-!
# The entries of probed hosts

The worker stores a probed target under the normalized text of its address.  The core
reads such an entry as that one host again, so a retry of stored entries probes exactly
them.
-/

set_option autoImplicit false

namespace Throned.Scanner

open Throned.Library Throned.Library.Netip Throned.Scan

/-! ## Address texts -/

/-- The parser reads what `netip` writes. -/
theorem ipListParseAddress_string (addr : Addr) :
    ∃ a, ipListParseAddress addr.string = some a ∧ a.Valid ∧ a.toAddr = addr := by
  cases addr with
  | v4 value =>
    obtain ⟨p, q, r, t, hquad, hvalue⟩ := isQuad_string value
    have hlt := value.isLt
    have hparse : ipListParseAddress (Addr.v4 value).string =
        some ⟨false, 0, BitVec.ofNat 64 value.toNat⟩ := by
      rw [ipListParseAddress, if_neg hquad.colon_not_mem,
        ipListParseV4_eq_some.mpr ⟨p, q, r, t, hquad, rfl⟩, hvalue, Option.map_some]
    refine ⟨_, hparse, (ipListParseAddress_spec hparse).1, ?_⟩
    simp only [IpListParseAddr.toAddr, Bool.false_eq_true, if_false, Addr.v4.injEq]
    apply BitVec.eq_of_toNat_eq
    rw [BitVec.toNat_setWidth, BitVec.toNat_ofNat]
    omega
  | v6 high low =>
    have hv6 := isIPv6_string high low
    have hcolon : ':' ∈ (Addr.v6 high low).string := by
      obtain ⟨p, t, hs, -⟩ := hv6.eq_append
      rw [hs]
      simp
    have hgroups := addrOfGroups_wordGroups high low
    have hparse := congrArg (Option.map fun groups : List ℕ =>
      (⟨true, ofGroups (groups.take 4), ofGroups (groups.drop 4)⟩ : IpListParseAddr))
      (ipListParseV6_eq_some.mpr hv6)
    rw [← takeWhile_percent (not_mem_percent hv6.addrChar)] at hparse
    refine ⟨_, (if_pos hcolon).trans hparse, fun h => Bool.noConfusion h, hgroups⟩

theorem addrChar_string (addr : Addr) : ∀ x ∈ addr.string, IsAddrChar x := by
  cases addr with
  | v4 value =>
    obtain ⟨p, q, r, t, hquad, -⟩ := isQuad_string value
    exact fun x hx => (hquad.addrChar x hx).imp hexDigit_isSome_of_decimalDigit Or.inr
  | v6 high low => exact (isIPv6_string high low).addrChar

/-- A bare address is its own network text. -/
theorem splitNetwork_addrChars {s : Text} (h : ∀ x ∈ s, IsAddrChar x) :
    splitNetwork s = some (s, none) := by
  have hslash : '/' ∉ s := fun hx => absurd (h _ hx) (by decide)
  have hbracket : s.head? ≠ some '[' := fun hx =>
    absurd (h _ (List.mem_of_head? hx)) (by decide)
  unfold splitNetwork
  rw [trimSpace_eq_self fun x hx => isSpace_of_isAddrChar (h x hx)]
  simp only [if_neg hbracket, cut_eq_none hslash]

theorem unmapPrefix_host (addr : Addr) :
    unmapPrefix (Prefix.host addr) = Prefix.host addr.unmap := by
  cases addr with
  | v4 value => rfl
  | v6 high low =>
    by_cases hmapped : (Addr.v6 high low).is4In6 = true
    · rw [Addr.unmap, if_pos hmapped]
      exact dif_pos ⟨hmapped, show 96 ≤ 128 by decide⟩
    · rw [Addr.unmap, if_neg hmapped]
      exact dif_neg fun h => hmapped h.1

/-- A single address is always accepted. -/
theorem exists_finishNetwork (b : IpListParseAddr) :
    ∃ network, finishNetwork b (ipListParseBits b) = some network := by
  have hbits : ipListParseBits b = 32 ∨ ipListParseBits b = 128 := by
    unfold ipListParseBits
    split
    · exact Or.inr rfl
    · exact Or.inl rfl
  unfold finishNetwork
  by_cases hmapped : ipListParseIsMapped b = true ∧ ipListParseBits b ≥ 96
  · simp only [if_pos hmapped]
    exact ⟨_, if_neg (by omega)⟩
  · simp only [if_neg hmapped]
    exact ⟨_, if_neg (by omega)⟩

/-- **The stored text of an address is the canonical text of its host.** -/
theorem normalizeCidr_string (addr : Addr) :
    ∃ a length, ∃ hc : Canonical a length,
      normalizeCidr addr.string = some (ipListParseCidr a length) ∧
        hc.toPrefix = Prefix.host addr.unmap := by
  obtain ⟨b, hparse, hvalid, haddr⟩ := ipListParseAddress_string addr
  have hbits : b.toAddr.bitLen = ipListParseBits b := IpListParseAddr.bitLen_toAddr b
  have hnetwork : ipListParseNetwork addr.string = finishNetwork b (ipListParseBits b) := by
    rw [ipListParseNetwork_eq, splitNetwork_addrChars (addrChar_string addr)]
    simp only [Option.bind_some, hparse]
  obtain ⟨⟨a, length⟩, hfinish⟩ := exists_finishNetwork b
  obtain ⟨hc, heq⟩ := finishNetwork_spec hvalid (Nat.le_of_eq hbits.symm) hfinish
  refine ⟨a, length, hc, ?_, ?_⟩
  · unfold normalizeCidr
    rw [hnetwork, hfinish]
    rfl
  · have hhost : (⟨b.toAddr, ipListParseBits b, Nat.le_of_eq hbits.symm⟩ : Prefix) =
        Prefix.host addr := by
      subst haddr
      exact Prefix.ext rfl hbits.symm
    rw [heq, hhost, unmapPrefix_host, Prefix.masked_host]

/-! ## Stored entries -/

/-- The text an address is stored under. -/
def hostCidr (addr : Addr) : Text := (normalizeCidr addr.string).getD addr.string

theorem parseTargetPrefix_hostCidr (addr : Addr) :
    parseTargetPrefix (hostCidr addr) = some (Prefix.host addr.unmap) := by
  obtain ⟨a, length, hc, htext, hstarts⟩ := normalizeCidr_string addr
  rw [hostCidr, htext, Option.getD_some, hc.parseTargetPrefix_cidr, hstarts]

/-- An IPv4-mapped address is stored as its IPv4 address. -/
theorem hostCidr_unmap (addr : Addr) : hostCidr addr.unmap = hostCidr addr := by
  obtain ⟨a, length, hc, htext, hstarts⟩ := normalizeCidr_string addr
  obtain ⟨a', length', hc', htext', hstarts'⟩ := normalizeCidr_string addr.unmap
  rw [Addr.unmap_unmap, ← hstarts] at hstarts'
  have haddr := IpListParseAddr.toAddr_injective hc'.valid hc.valid (congrArg Prefix.addr hstarts')
  have hlength : length' = length := congrArg Prefix.bits hstarts'
  rw [hostCidr, htext', hostCidr, htext, haddr, hlength]
  rfl

/-- The entry of a probed target. -/
def targetEntry (target : Target) : IpListEntry := ⟨hostCidr target.addr, target.port, 0⟩

theorem port_le_of_mem_hostPorts {spec : Spec} {x : Target} (h : x ∈ spec.hostPorts) :
    x.port ≤ 0xffff := by
  obtain ⟨entry, -, p, port, hparse, -, hport⟩ := h
  have hnormal := normalizePorts_spec spec.defaultPorts
  exact (entryPorts_spec spec.portMode (parse_spec hparse).2 hnormal.1
    fun q hq => ((hnormal.2 q).mp hq).2.1).2.2 _ hport

/-- A result is stored as the entry of its target. -/
theorem resultEntry_eq {r : ScanProbeResult} {target : Target}
    (haddress : r.address = target.addr.string) (hport : r.port = target.port) :
    ScanWorker.resultEntry r = targetEntry target := by
  unfold ScanWorker.resultEntry scanWorkerEntry targetEntry hostCidr
  rw [haddress, hport]

/-- **A retry probes the entries it is built from, and nothing else.** -/
theorem mem_of_mem_retrySpec {failures : List IpListEntry}
    (hentries : ∀ e ∈ failures, ∃ target : Target, target.port ≤ 0xffff ∧ e = targetEntry target)
    {x : Target} (hx : x ∈ (ScanWorker.retrySpec failures).hostPorts) :
    targetEntry x ∈ failures := by
  obtain ⟨entry, hentry, p, port, hparse, haddr, hport⟩ := hx
  obtain ⟨e, he, rfl⟩ := List.mem_map.mp hentry
  obtain ⟨target, hle, rfl⟩ := hentries e he
  unfold Entry.parse targetEntry at hparse
  rw [parseTargetPrefix_hostCidr] at hparse
  have hrange : ¬((target.port : Int) < 0 ∨ (target.port : Int) > 0xffff) := by omega
  simp only [if_neg hrange, Option.some.injEq, Prod.mk.injEq, Int.toNat_natCast] at hparse
  obtain ⟨rfl, rfl⟩ := hparse
  have hx : x.addr = target.addr.unmap := Prefix.mem_hosts_host.mp haddr
  have hxport : x.port = target.port := by
    have hports : (ScanWorker.retrySpec failures).portsOf target.port =
        entryPorts portModeList target.port [] := rfl
    rw [hports] at hport
    unfold entryPorts at hport
    by_cases hzero : target.port = 0
    · simpa [portModeList, portModeIgnore, hzero] using hport
    · simpa [portModeList, portModeIgnore, hzero] using hport
  have hsame : targetEntry x = targetEntry target := by
    unfold targetEntry
    rw [hx, hostCidr_unmap, hxport]
  rw [hsame]
  exact he

end Throned.Scanner
