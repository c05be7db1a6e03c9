import Mathlib
import Throned.Library.Integers
import Throned.Library.NetipText
import Throned.Model.DnsAddress

/-!
# What a DNS address says

The grammar of DNS addresses, part by part, and that `ParseDnsAddress` reads a text of the grammar
as what it says and nothing else.  A text that begins with the letters of `local` is the local
resolver; every other text that is read names a remote server or an interface.
-/

set_option autoImplicit false

namespace Throned.Configs

open Throned.Library Throned.Library.Netip
open Throned.Configs.SingBox (toAceHost)

section Grammar

variable (qt : DnsText)

/-- A host that may stand without brackets and before a port. -/
inductive NamedHost : Text → Prop
  | quad {host : Text} {a b c d : ℕ} (h : IsQuad host a b c d) : NamedHost host
  | name {host : Text} (hletter : ∃ c ∈ host, decimalDigit c = none ∧ c ≠ '.')
      (hplain : ∀ c ∈ host, c ≠ ':' ∧ c ≠ '/' ∧ c ≠ '\n') (hopen : host.head? ≠ some '[')
      (h : IsHostName (toAceHost qt.toQtFunctions host)) : NamedHost host

/-- An IPv6 address, with or without a zone. -/
structure IPv6Literal (host : Text) : Prop where
  isIPv6 : qt.isIPv6 host = true
  slash : '/' ∉ host

def portSuffix : Option Text → Text
  | none => []
  | some portText => ':' :: portText

/-- How a host and its port are written. -/
inductive WrittenHost : Text → Option Text → Text → Prop
  | named {host : Text} {portText : Option Text} (h : NamedHost qt host) :
      WrittenHost host portText (host ++ portSuffix portText)
  | bare {host : Text} (h : IPv6Literal qt host) : WrittenHost host none host
  | bracketed {host : Text} {portText : Option Text} (h : IPv6Literal qt host)
      (hclose : ']' ∉ host) :
      WrittenHost host portText ('[' :: (host ++ ']' :: portSuffix portText))

end Grammar

/-- A port of at most five digits; without one it is the type's own. -/
def IsPort : Option Text → ℕ → Prop
  | none, n => n = 0
  | some portText, n =>
    portText.length ≤ 5 ∧ parseDecimal portText = some n ∧ 1 ≤ n ∧ n ≤ 65535

/-- A scheme as it is written, in letters of either case, or none at all. -/
inductive WrittenScheme : Text → Text → Prop
  | bare : WrittenScheme [] "udp".toList
  | named {scheme : Text} (h : scheme.map Char.toLower ∈ plainSchemes ++ pathSchemes) :
      WrittenScheme (scheme ++ "://".toList) (scheme.map Char.toLower)

/-- Only some schemes take a path. -/
def IsPath (scheme path : Text) : Prop := path = [] ∨ (scheme ∈ pathSchemes ∧ path.head? = some '/')

/-- The name of an interface. -/
def IsInterface (iface : Text) : Prop :=
  iface ≠ [] ∧ ∀ c ∈ iface, isExprSpace c = false ∧ c ≠ '/'

/-- **The grammar.** The address that a text without white space around it says. -/
inductive Written (qt : DnsText) : Text → DnsAddress → Prop
  | localResolver {text : Text} (h : startsWithLocal text = true) :
      Written qt text { type := "local".toList }
  | auto {scheme iface : Text} (hscheme : scheme.map Char.toLower = "dhcp".toList)
      (h : iface.map Char.toLower = "auto".toList) :
      Written qt (scheme ++ "://".toList ++ iface) { type := "dhcp".toList }
  | interface {scheme iface : Text} (hscheme : scheme.map Char.toLower = "dhcp".toList)
      (h : IsInterface iface) (hauto : iface.map Char.toLower ≠ "auto".toList) :
      Written qt (scheme ++ "://".toList ++ iface) { type := "dhcp".toList, iface }
  | server {prelude scheme host authority path : Text} {portText : Option Text} {port : ℕ}
      (hscheme : WrittenScheme prelude scheme) (hhost : WrittenHost qt host portText authority)
      (hport : IsPort portText port) (hpath : IsPath scheme path)
      (hlocal : prelude = [] → startsWithLocal authority = false) :
      Written qt (prelude ++ authority ++ path)
        { type := scheme, server := toAceHost qt.toQtFunctions host, port, path }

/-! ## Numbers -/

theorem isSome_of_parseDecimal {text : Text} {n : ℕ} (h : parseDecimal text = some n) :
    text ≠ [] ∧ ∀ c ∈ text, (decimalDigit c).isSome := by
  unfold parseDecimal at h
  split at h
  next => simp at h
  next hne => exact ⟨hne, digit_of_readDigits h⟩

theorem parseDecimal_of_digits {text : Text} (hne : text ≠ [])
    (h : ∀ c ∈ text, (decimalDigit c).isSome) : ∃ n, parseDecimal text = some n := by
  have hread : ∀ (s : Text) (acc : ℕ), (∀ c ∈ s, (decimalDigit c).isSome) →
      ∃ n, readDigits 10 decimalDigit acc s = some n := by
    intro s
    induction s with
    | nil => exact fun acc _ => ⟨acc, rfl⟩
    | cons c s ih =>
      intro acc hs
      obtain ⟨d, hd⟩ := Option.isSome_iff_exists.mp (hs c (by simp))
      simp only [readDigits, hd]
      exact ih _ fun x hx => hs x (List.mem_cons_of_mem _ hx)
  simp only [parseDecimal, if_neg hne]
  exact hread text 0 h

/-- An octet is a decimal number of three digits at most, without leading zeros. -/
theorem isCanonicalDecimal_octet {octet : Text} :
    (isCanonicalDecimal octet 3 = true ∧ (parseDecimal octet).getD 0 ≤ 255) ↔
      ∃ v, IsOctet octet v := by
  constructor
  · rintro ⟨h, hle⟩
    unfold isCanonicalDecimal at h
    split at h
    next => simp at h
    next hshape =>
      split at h
      next => simp at h
      next hzero =>
        rw [not_or, not_lt] at hshape
        obtain ⟨v, hv⟩ := parseDecimal_of_digits hshape.1 (by simpa using h)
        rw [hv, Option.getD_some] at hle
        exact ⟨v, hv, hshape.2, hle, fun hlong hhead => hzero ⟨hlong, hhead⟩⟩
  · rintro ⟨v, hoctet⟩
    obtain ⟨hread, hlength, hle, hzero⟩ := id hoctet
    refine ⟨?_, by rwa [hread]⟩
    have hshape : ¬ (octet = [] ∨ octet.length > 3) := by
      rw [not_or, not_lt]
      exact ⟨hoctet.ne_nil, hlength⟩
    have hlead : ¬ (octet.length > 1 ∧ octet.head? = some '0') := fun h => hzero h.1 h.2
    rw [isCanonicalDecimal, if_neg hshape, if_neg hlead]
    simpa using hoctet.decimalDigit_of_mem

/-- **IPv4 addresses.** `isCanonicalIPv4` takes dotted quads alone. -/
theorem isCanonicalIPv4_iff (host : Text) :
    isCanonicalIPv4 host = true ↔ ∃ a b c d, IsQuad host a b c d := by
  have hoctets : ∀ octets : List Text, (octets.all fun octet =>
      isCanonicalDecimal octet 3 && decide ((parseDecimal octet).getD 0 ≤ 255)) = true ↔
      ∀ octet ∈ octets, ∃ v, IsOctet octet v := by
    intro octets
    simp only [List.all_eq_true, Bool.and_eq_true, decide_eq_true_eq, isCanonicalDecimal_octet]
  unfold isCanonicalIPv4
  rw [Bool.and_eq_true, hoctets, decide_eq_true_eq]
  constructor
  · rintro ⟨hlength, hall⟩
    obtain ⟨p, q, r, t, hsplit⟩ := List.length_eq_four.mp hlength
    have hjoin : List.intercalate ['.'] (host.splitOn '.') = host := List.intercalate_splitOn '.'
    rw [hsplit] at hall hjoin
    obtain ⟨a, ha⟩ := hall p (by simp)
    obtain ⟨b, hb⟩ := hall q (by simp)
    obtain ⟨c, hc⟩ := hall r (by simp)
    obtain ⟨d, hd⟩ := hall t (by simp)
    refine ⟨a, b, c, d, p, q, r, t, ha, hb, hc, hd, ?_⟩
    rw [← hjoin]
    simp [List.intercalate_cons_cons]
  · rintro ⟨a, b, c, d, p, q, r, t, hp, hq, hr, ht, rfl⟩
    rw [List.splitOn_append_cons_self_of_not_mem hp.dot_not_mem,
      List.splitOn_append_cons_self_of_not_mem hq.dot_not_mem,
      List.splitOn_append_cons_self_of_not_mem hr.dot_not_mem,
      List.splitOn_eq_singleton ht.dot_not_mem]
    refine ⟨rfl, fun octet hoctet => ?_⟩
    simp only [List.mem_cons, List.not_mem_nil, or_false] at hoctet
    rcases hoctet with rfl | rfl | rfl | rfl
    exacts [⟨a, hp⟩, ⟨b, hq⟩, ⟨c, hr⟩, ⟨d, ht⟩]

/-- A text that does not end in a line feed is matched as a whole. -/
theorem wholeMatch_of_notMem {language : Text → Bool} {text : Text} (h : '\n' ∉ text) :
    wholeMatch language text = language text := by
  have hlast : text.getLast? ≠ some '\n' := fun hlast => h (List.mem_of_getLast? hlast)
  simp [wholeMatch, hlast]

/-! ## Hosts -/

section Hosts

variable (qt : DnsText)

/-- No line feed comes from the ACE form. -/
theorem line_notMem_toAceHost {host : Text} (h : '\n' ∉ host) :
    '\n' ∉ toAceHost qt.toQtFunctions host := by
  have hname : ∀ part : Text, '\n' ∉ part → '\n' ∉ SingBox.toAceName qt.toQtFunctions part := by
    intro part hpart
    unfold SingBox.toAceName
    split
    next => exact hpart
    next =>
      split
      next => exact hpart
      next => exact qt.toAce_line part
  unfold toAceHost
  split
  next =>
    intro hmem
    obtain hcomma | ⟨piece, hpiece, hin⟩ := mem_intercalate hmem
    · exact absurd hcomma (by decide)
    · obtain ⟨part, hpart, rfl⟩ := List.mem_map.mp hpiece
      refine hname _ (fun htrim => h ?_) hin
      have hsub := (trimSpace_isInfix part).subset htrim
      have hjoin : List.intercalate [','] (host.splitOn ',') = host := List.intercalate_splitOn ','
      rw [← hjoin]
      exact mem_intercalate_of_mem hpart hsub
  next => exact hname host h

theorem IPv6Literal.isIPv6Literal {host : Text} (h : IPv6Literal qt host) :
    isIPv6Literal qt host true = true := by
  have hcolons := qt.isIPv6_colons host h.isIPv6
  have hcolon : ':' ∈ host :=
    (List.takeWhile_subset _) (List.count_pos_iff.mp (Nat.lt_of_succ_lt hcolons))
  simp [Configs.isIPv6Literal, hcolon, h.isIPv6]

theorem IPv6Literal.colons {host : Text} (h : IPv6Literal qt host) : 1 < host.count ':' :=
  (qt.isIPv6_colons host h.isIPv6).trans_le ((List.takeWhile_prefix _).sublist.count_le _)

theorem isIPv6_of_isIPv6Literal {host : Text} {allowZone : Bool}
    (h : isIPv6Literal qt host allowZone = true) : qt.isIPv6 host = true := by
  unfold isIPv6Literal at h
  split at h
  next => simp at h
  next => exact h

/-! ### Ports -/

/-- **Ports.** A port that is written is read, and nothing else is one. -/
theorem parsePort_iff {portText : Option Text} (hline : ∀ p ∈ portText, '\n' ∉ p) (port : ℕ) :
    parsePort qt portText = .ok port ↔ IsPort portText port := by
  cases portText with
  | none => simp [parsePort, IsPort, eq_comm]
  | some p =>
    have hre : portRe p = true ↔ p ≠ [] ∧ p.length ≤ 5 ∧ ∀ c ∈ p, (decimalDigit c).isSome := by
      rw [portRe, wholeMatch_of_notMem (hline p rfl)]
      simp [and_assoc]
    simp only [parsePort, IsPort]
    constructor
    · intro h
      have hne : p ≠ [] := by
        rintro rfl
        simp at h
      rw [if_neg hne] at h
      by_cases hp : portRe p = true
      · obtain ⟨-, hlength, hdigits⟩ := hre.mp hp
        obtain ⟨n, hn⟩ := parseDecimal_of_digits hne hdigits
        have htrim : trimSpace p = p := trimSpace_eq_self fun c hc =>
          (plain_of_decimalDigit (hdigits c hc)).1
        rw [if_pos hp, htrim, hn, Option.getD_some] at h
        split at h
        next => simp at h
        next hrange =>
          rw [Except.ok.injEq] at h
          rw [not_or, not_lt, not_lt] at hrange
          exact ⟨hlength, by rw [hn, h], h ▸ hrange.1, h ▸ hrange.2⟩
      · simp [hp] at h
    · rintro ⟨hlength, hread, hlow, hhigh⟩
      obtain ⟨hne, hdigits⟩ := isSome_of_parseDecimal hread
      have htrim : trimSpace p = p := trimSpace_eq_self fun c hc =>
        (plain_of_decimalDigit (hdigits c hc)).1
      have hrange : ¬ (port < 1 ∨ port > 65535) := by omega
      simp only [if_neg hne, if_pos (hre.mpr ⟨hne, hlength, hdigits⟩), htrim, hread,
        Option.getD_some, if_neg hrange]

/-- The text of a port has none of the signs around it. -/
theorem IsPort.digits {portText : Option Text} {port : ℕ} (h : IsPort portText port) :
    ∀ c ∈ portSuffix portText, c = ':' ∨ (decimalDigit c).isSome = true := by
  cases portText with
  | none => simp [portSuffix]
  | some p =>
    intro c hc
    rcases List.mem_cons.mp hc with rfl | hin
    · exact Or.inl rfl
    · exact Or.inr ((isSome_of_parseDecimal h.2.1).2 c hin)

theorem IsPort.count_colon {portText : Option Text} {port : ℕ} (h : IsPort portText port) :
    (portSuffix portText).count ':' ≤ 1 := by
  cases portText with
  | none => simp [portSuffix]
  | some p =>
    have hcolon : ':' ∉ p := fun hc => absurd ((isSome_of_parseDecimal h.2.1).2 _ hc) (by decide)
    simp [portSuffix, List.count_eq_zero_of_not_mem hcolon]

/-! ### Names and quads -/

/-- A dotted quad is digits and dots. -/
theorem quad_digits {host : Text} {a b c d : ℕ} (h : IsQuad host a b c d) :
    host ≠ [] ∧ ∀ x ∈ host, (decimalDigit x).isSome = true ∨ x = '.' := by
  obtain ⟨p, q, r, t, hp, hq, hr, ht, rfl⟩ := h
  refine ⟨by simp, fun x hx => ?_⟩
  simp only [List.mem_append, List.mem_cons] at hx
  rcases hx with hx | rfl | hx | rfl | hx | rfl | hx
  · exact Or.inl (hp.decimalDigit_of_mem x hx)
  · exact Or.inr rfl
  · exact Or.inl (hq.decimalDigit_of_mem x hx)
  · exact Or.inr rfl
  · exact Or.inl (hr.decimalDigit_of_mem x hx)
  · exact Or.inr rfl
  · exact Or.inl (ht.decimalDigit_of_mem x hx)

/-- The signs around a host are not in it. -/
theorem NamedHost.plain {host : Text} (h : NamedHost qt host) :
    host ≠ [] ∧ (∀ c ∈ host, c ≠ ':' ∧ c ≠ '/' ∧ c ≠ '\n') ∧ host.head? ≠ some '[' := by
  cases h with
  | quad h =>
    obtain ⟨hne, hdigits⟩ := quad_digits h
    have hsigns : ∀ x ∈ [':', '/', '\n', '['], ¬ ((decimalDigit x).isSome = true ∨ x = '.') :=
      List.forall_iff_forall_mem.mp (by decide)
    refine ⟨hne, fun c hc => ⟨?_, ?_, ?_⟩, fun hopen => ?_⟩
    · rintro rfl
      exact hsigns _ (by simp) (hdigits _ hc)
    · rintro rfl
      exact hsigns _ (by simp) (hdigits _ hc)
    · rintro rfl
      exact hsigns _ (by simp) (hdigits _ hc)
    · exact hsigns _ (by simp) (hdigits _ (List.mem_of_head? hopen))
  | name hletter hplain hopen _ =>
    obtain ⟨c, hc, -⟩ := hletter
    exact ⟨List.ne_nil_of_mem hc, hplain, hopen⟩

theorem ipv4LikeRe_iff {host : Text} (hline : '\n' ∉ host) :
    ipv4LikeRe host = true ↔
      host ≠ [] ∧ ∀ c ∈ host, (decimalDigit c).isSome = true ∨ c = '.' := by
  rw [ipv4LikeRe, wholeMatch_of_notMem hline]
  simp

/-- **Names.** What the tests of a host without brackets let through. -/
theorem checkedHost_iff {host : Text} (hplain : ∀ c ∈ host, c ≠ ':' ∧ c ≠ '/' ∧ c ≠ '\n')
    (hopen : host.head? ≠ some '[') (portText : Option Text) (read : Text × Option Text) :
    checkedHost qt host portText = .ok read ↔ NamedHost qt host ∧ read = (host, portText) := by
  have hline : '\n' ∉ host := fun h => (hplain _ h).2.2 rfl
  have hname : hostnameRe (toAceHost qt.toQtFunctions host) = true ↔
      IsHostName (toAceHost qt.toQtFunctions host) := by
    rw [hostnameRe, wholeMatch_of_notMem (line_notMem_toAceHost qt hline), hostName_iff]
  unfold checkedHost
  by_cases hne : host = []
  · rw [if_pos hne]
    exact ⟨fun h => by simp at h, fun h => absurd hne h.1.plain.1⟩
  by_cases hlike : ipv4LikeRe host = true
  · rw [if_neg hne, if_pos hlike]
    have hquad : NamedHost qt host ↔ isCanonicalIPv4 host = true := by
      rw [isCanonicalIPv4_iff]
      constructor
      · intro h
        cases h with
        | quad hquad => exact ⟨_, _, _, _, hquad⟩
        | name hletter _ _ _ =>
          obtain ⟨c, hc, hdigit, hdot⟩ := hletter
          rcases ((ipv4LikeRe_iff hline).mp hlike).2 c hc with hsome | heq
          · simp [hdigit] at hsome
          · exact absurd heq hdot
      · rintro ⟨a, b, c, d, hquad⟩
        exact .quad hquad
    rw [hquad]
    by_cases hcanonical : isCanonicalIPv4 host = true
    · simp [hcanonical, eq_comm]
    · simp [hcanonical]
  · rw [if_neg hne, if_neg hlike]
    have hhost : NamedHost qt host ↔ hostnameRe (toAceHost qt.toQtFunctions host) = true := by
      rw [hname]
      constructor
      · intro h
        cases h with
        | quad hquad => exact absurd ((ipv4LikeRe_iff hline).mpr (quad_digits hquad)) hlike
        | name _ _ _ h => exact h
      · intro h
        refine .name ?_ hplain hopen h
        by_contra hall
        push Not at hall
        refine hlike ((ipv4LikeRe_iff hline).mpr ⟨hne, fun c hc => ?_⟩)
        cases hdigit : decimalDigit c with
        | none => exact Or.inr (hall c hc hdigit)
        | some d => exact Or.inl rfl
    rw [hhost]
    by_cases hmatch : hostnameRe (toAceHost qt.toQtFunctions host) = true
    · simp [hmatch, eq_comm]
    · simp [hmatch]

/-- A host without brackets is read with what follows its colon. -/
theorem namedHost_of_NamedHost {host : Text} (h : NamedHost qt host) (portText : Option Text) :
    namedHost qt (host ++ portSuffix portText) = .ok (host, portText) := by
  obtain ⟨-, hplain, hopen⟩ := h.plain
  have hchecked := fun p => (checkedHost_iff qt hplain hopen p (host, p)).mpr ⟨h, rfl⟩
  have hcolon : ':' ∉ host := fun hc => (hplain _ hc).1 rfl
  unfold namedHost
  cases portText with
  | none =>
    rw [portSuffix, List.append_nil, cut_eq_none hcolon]
    exact hchecked none
  | some p =>
    rw [portSuffix, cut_append hcolon p]
    exact hchecked (some p)

/-- What a host without brackets is read as. -/
theorem NamedHost_of_namedHost {rest host : Text} {portText : Option Text}
    (hplain : ∀ c ∈ rest, c ≠ '/' ∧ c ≠ '\n') (hopen : rest.head? ≠ some '[')
    (h : namedHost qt rest = .ok (host, portText)) :
    NamedHost qt host ∧ rest = host ++ portSuffix portText := by
  have hchecked : ∀ (name : Text) (p : Option Text), ':' ∉ name → name <+: rest →
      checkedHost qt name p = .ok (host, portText) →
      NamedHost qt host ∧ name = host ∧ p = portText := by
    intro name p hcolon hstarts h
    have hname : ∀ c ∈ name, c ≠ ':' ∧ c ≠ '/' ∧ c ≠ '\n' := fun c hc =>
      ⟨fun heq => hcolon (heq ▸ hc), hplain c (hstarts.subset hc)⟩
    have hhead : name.head? ≠ some '[' := by
      intro hhead
      obtain ⟨more, rfl⟩ := hstarts
      refine hopen ?_
      rw [List.head?_append, hhead]
      rfl
    obtain ⟨hnamed, hread⟩ := (checkedHost_iff qt hname hhead p _).mp h
    simp only [Prod.mk.injEq] at hread
    exact ⟨hread.1 ▸ hnamed, hread.1.symm, hread.2.symm⟩
  unfold namedHost at h
  cases hcut : cut ':' rest with
  | none =>
    rw [hcut] at h
    have hcolon : ':' ∉ rest := by
      intro hmem
      obtain ⟨l, r, rfl, hl⟩ := List.eq_append_cons_of_mem hmem
      simp [cut_append hl] at hcut
    obtain ⟨hnamed, rfl, rfl⟩ := hchecked rest none hcolon (List.prefix_refl _) h
    exact ⟨hnamed, by simp [portSuffix]⟩
  | some parts =>
    obtain ⟨left, p⟩ := parts
    rw [hcut] at h
    obtain ⟨heq, hcolon⟩ := eq_append_of_cut hcut
    have hstarts : left <+: rest := by
      rw [heq]
      exact List.prefix_append _ _
    obtain ⟨hnamed, rfl, rfl⟩ := hchecked left (some p) hcolon hstarts h
    exact ⟨hnamed, heq⟩

/-! ### Hosts of every form -/

/-- **Hosts.** A host and its port are read as they are written. -/
theorem parseHost_of_WrittenHost {host authority : Text} {portText : Option Text} {port : ℕ}
    (h : WrittenHost qt host portText authority) (hport : IsPort portText port) :
    parseHost qt authority = .ok (host, portText) := by
  unfold parseHost
  cases h with
  | named h =>
    obtain ⟨hne, hplain, hopen⟩ := h.plain
    have hhead : (host ++ portSuffix portText).head? ≠ some '[' := by
      rwa [List.head?_append_of_ne_nil _ hne]
    have hcount : ¬ (host ++ portSuffix portText).count ':' > 1 := by
      have hcolon : ':' ∉ host := fun hc => (hplain _ hc).1 rfl
      rw [List.count_append, List.count_eq_zero_of_not_mem hcolon, Nat.zero_add, not_lt]
      exact hport.count_colon
    rw [if_neg hhead, if_neg hcount]
    exact namedHost_of_NamedHost qt h portText
  | bare h =>
    rw [if_neg (qt.isIPv6_head _ h.isIPv6), if_pos h.colons, if_pos h.isIPv6Literal]
  | bracketed h hclose =>
    have hcut : cut ']' ('[' :: (host ++ ']' :: portSuffix portText)) =
        some ('[' :: host, portSuffix portText) :=
      cut_append (l := '[' :: host) (by simp [hclose]) _
    rw [if_pos List.head?_cons, bracketedHost, hcut]
    cases portText with
    | none => simp [portSuffix, h.isIPv6Literal]
    | some p => simp [portSuffix, h.isIPv6Literal]

/-- What an authority is read as. -/
theorem WrittenHost_of_parseHost {authority host : Text} {portText : Option Text}
    (hplain : ∀ c ∈ authority, c ≠ '/' ∧ c ≠ '\n')
    (h : parseHost qt authority = .ok (host, portText)) : WrittenHost qt host portText authority := by
  unfold parseHost at h
  split at h
  next hopen =>
    unfold bracketedHost at h
    cases hcut : cut ']' authority with
    | none => simp [hcut] at h
    | some parts =>
      obtain ⟨opening, tail⟩ := parts
      obtain ⟨rfl, hclose⟩ := eq_append_of_cut hcut
      obtain ⟨name, rfl⟩ : ∃ name, opening = '[' :: name := by
        cases opening with
        | nil => simp at hopen
        | cons c name =>
          simp only [List.cons_append, List.head?_cons, Option.some.injEq] at hopen
          exact ⟨name, by rw [hopen]⟩
      simp only [hcut, List.tail_cons] at h
      split at h
      next => simp at h
      next htail =>
        by_cases hliteral : isIPv6Literal qt name true = true
        · simp only [hliteral, Bool.true_eq_false, if_false, Except.ok.injEq, Prod.mk.injEq] at h
          obtain ⟨rfl, rfl⟩ := h
          have hsuffix : portSuffix (if tail = [] then none else some tail.tail) = tail := by
            cases tail with
            | nil => rfl
            | cons c rest =>
              simp only [List.head?_cons, ne_eq, reduceCtorEq, not_false_eq_true, true_and,
                Option.some.injEq, not_not] at htail
              simp [portSuffix, htail]
          have hliteral : IPv6Literal qt name :=
            ⟨isIPv6_of_isIPv6Literal qt hliteral, fun hc => (hplain '/' (by simp [hc])).1 rfl⟩
          have hwritten : WrittenHost qt name (if tail = [] then none else some tail.tail)
              ('[' :: (name ++ ']' :: portSuffix (if tail = [] then none else some tail.tail))) :=
            .bracketed hliteral fun hc => hclose (List.mem_cons_of_mem _ hc)
          rw [hsuffix] at hwritten
          exact hwritten
        · simp [hliteral] at h
  next hopen =>
    split at h
    next =>
      split at h
      next hliteral =>
        simp only [Except.ok.injEq, Prod.mk.injEq] at h
        obtain ⟨rfl, rfl⟩ := h
        exact .bare ⟨isIPv6_of_isIPv6Literal qt hliteral, fun hc => (hplain _ hc).1 rfl⟩
      next => simp at h
    next =>
      obtain ⟨hnamed, heq⟩ := NamedHost_of_namedHost qt hplain hopen h
      rw [heq]
      exact .named hnamed

/-- A host and its port hold no slash, and the text of the port is in what is written. -/
theorem WrittenHost.slash_notMem {host authority : Text} {portText : Option Text} {port : ℕ}
    (h : WrittenHost qt host portText authority) (hport : IsPort portText port) :
    '/' ∉ authority := by
  have hsuffix : '/' ∉ portSuffix portText := by
    intro hmem
    rcases hport.digits _ hmem with hcolon | hdigit
    · exact absurd hcolon (by decide)
    · exact absurd hdigit (by decide)
  cases h with
  | named h =>
    intro hmem
    rcases List.mem_append.mp hmem with hhost | hin
    · exact (h.plain.2.1 _ hhost).2.1 rfl
    · exact hsuffix hin
  | bare h => exact h.slash
  | bracketed h _ => simp [h.slash, hsuffix]

theorem WrittenHost.port_subset {host authority p : Text}
    (h : WrittenHost qt host (some p) authority) : p ⊆ authority := by
  intro c hc
  cases h with
  | named _ => simp [portSuffix, hc]
  | bracketed _ _ => simp [portSuffix, hc]

theorem WrittenHost.ne_nil {host authority : Text} {portText : Option Text}
    (h : WrittenHost qt host portText authority) : authority ≠ [] := by
  cases h with
  | named h => simp [h.plain.1]
  | bare h =>
    rintro rfl
    exact absurd h.colons (by simp)
  | bracketed _ _ => simp

/-! ## Servers -/

/-- **Servers.** What is written behind a scheme is read back. -/
theorem parseServer_of_written {scheme host authority path : Text} {portText : Option Text}
    {port : ℕ} (hhost : WrittenHost qt host portText authority) (hport : IsPort portText port)
    (hpath : IsPath scheme path) :
    parseServer qt scheme (authority ++ path) =
      .ok { type := scheme, server := toAceHost qt.toQtFunctions host, port, path } := by
  have hslash := hhost.slash_notMem qt hport
  have hstop : ∀ c ∈ authority, decide (c ≠ '/') = true := fun c hc =>
    decide_eq_true fun heq => hslash (heq ▸ hc)
  have hparts : (authority ++ path).takeWhile (· ≠ '/') = authority ∧
      (authority ++ path).dropWhile (· ≠ '/') = path := by
    rcases hpath with rfl | ⟨-, hhead⟩
    · rw [List.append_nil, List.takeWhile_eq_self_iff.mpr hstop,
        List.dropWhile_eq_nil_iff.mpr hstop]
      exact ⟨rfl, rfl⟩
    · cases path with
      | nil => simp at hhead
      | cons c rest =>
        obtain rfl : c = '/' := by simpa using hhead
        exact takeWhile_append_stop hstop (by simp) rest
  have hscheme : ¬ (path ≠ [] ∧ scheme ∉ pathSchemes) := by
    rintro ⟨hne, hnot⟩
    rcases hpath with hnil | ⟨hin, -⟩
    · exact hne hnil
    · exact hnot hin
  unfold parseServer
  rw [hparts.1, hparts.2]
  simp only [if_neg hscheme, parseHost_of_WrittenHost qt hhost hport]
  have hread : parsePort qt portText = .ok port := (parsePort_iff qt (by
    intro p hp hline
    subst hp
    rcases hport.digits '\n' (by simp [portSuffix, hline]) with hcolon | hdigit
    · exact absurd hcolon (by decide)
    · exact absurd hdigit (by decide)) port).mpr hport
  simp only [bind, Except.bind, hread]

/-- What a server is read as. -/
theorem written_of_parseServer {scheme rest : Text} {address : DnsAddress} (hline : '\n' ∉ rest)
    (h : parseServer qt scheme rest = .ok address) :
    ∃ host portText port authority path, rest = authority ++ path ∧
      WrittenHost qt host portText authority ∧ IsPort portText port ∧ IsPath scheme path ∧
      address = { type := scheme, server := toAceHost qt.toQtFunctions host, port, path } := by
  unfold parseServer at h
  simp only at h
  split at h
  next => simp at h
  next hscheme =>
    cases hread : parseHost qt (rest.takeWhile (· ≠ '/')) with
    | error reason => simp only [hread, bind, Except.bind, reduceCtorEq] at h
    | ok parts =>
      obtain ⟨host, portText⟩ := parts
      cases hnumber : parsePort qt portText with
      | error reason => simp only [hread, hnumber, bind, Except.bind, reduceCtorEq] at h
      | ok port =>
        simp only [hread, hnumber, bind, Except.bind, Except.ok.injEq] at h
        have hplain : ∀ c ∈ rest.takeWhile (· ≠ '/'), c ≠ '/' ∧ c ≠ '\n' := by
          intro c hc
          refine ⟨by simpa using List.mem_takeWhile_imp hc, ?_⟩
          rintro rfl
          exact hline ((List.takeWhile_subset _) hc)
        have hhost := WrittenHost_of_parseHost qt hplain hread
        refine ⟨host, portText, port, _, rest.dropWhile (· ≠ '/'),
          (List.takeWhile_append_dropWhile).symm, hhost, ?_, ?_, h.symm⟩
        · refine (parsePort_iff qt ?_ port).mp hnumber
          rintro p rfl hmem
          exact (hplain _ (hhost.port_subset qt hmem)).2 rfl
        · by_cases hnil : rest.dropWhile (· ≠ '/') = []
          · exact Or.inl hnil
          · refine Or.inr ⟨by_contra fun hnot => hscheme ⟨hnil, hnot⟩, ?_⟩
            have hhead := List.head_dropWhile_not (fun c => decide (c ≠ '/')) hnil
            rw [List.head?_eq_some_head hnil]
            simpa using hhead

/-! ## Schemes -/

/-- The schemes are small letters, and not the one whose sign has a double. -/
theorem schemes_plain : ∀ small ∈ "dhcp".toList :: (plainSchemes ++ pathSchemes),
    ∀ c ∈ small, c.toNat < 128 ∧ c ≠ 'k' := by
  have hlisted : ∀ small ∈ "dhcp".toList :: (plainSchemes ++ pathSchemes),
      List.Forall (fun c : Char => c.toNat < 128 ∧ c ≠ 'k') small := by decide
  exact fun small hsmall => List.forall_iff_forall_mem.mp (hlisted small hsmall)

/-- A scheme is read in letters of either case, and no scheme begins as `local` does. -/
theorem scheme_facts {scheme small : Text}
    (hsmall : small ∈ "dhcp".toList :: (plainSchemes ++ pathSchemes))
    (h : scheme.map Char.toLower = small) :
    qt.toLower scheme = small ∧ ':' ∉ scheme ∧
      ∀ rest, startsWithLocal (scheme ++ "://".toList ++ rest) = false := by
  have hlisted : ∀ small ∈ "dhcp".toList :: (plainSchemes ++ pathSchemes),
      ':' ∉ small ∧ small ≠ [] ∧ small.head? ≠ some 'l' := by decide
  obtain ⟨hcolon, hne, hhead⟩ := hlisted small hsmall
  refine ⟨(qt.toLower_eq scheme small (schemes_plain small hsmall)).mpr h, fun hmem => ?_, fun rest => ?_⟩
  · apply hcolon
    rw [← h]
    exact List.mem_map.mpr ⟨':', hmem, by decide⟩
  · cases scheme with
    | nil => exact absurd h.symm hne
    | cons c letters =>
      rw [← h, List.map_cons, List.head?_cons, ne_eq, Option.some.injEq] at hhead
      simp [startsWithLocal, hhead]

/-! ## Interfaces -/

theorem ifaceRe_of_IsInterface {iface : Text} (h : IsInterface iface) : ifaceRe iface = true := by
  simp only [ifaceRe, wholeMatch, Bool.or_eq_true]
  left
  simpa [h.1] using h.2

/-- No sign below the letters is one of `auto`. -/
theorem isInterface_auto {iface : Text} (h : iface.map Char.toLower = "auto".toList) :
    IsInterface iface := by
  have hletters : ∀ c ∈ "auto".toList, isExprSpace c = false ∧ c ≠ '/' :=
    List.forall_iff_forall_mem.mp (by decide)
  refine ⟨by rintro rfl; exact absurd h (by decide), fun c hc => ?_⟩
  have hin : c.toLower ∈ "auto".toList := h ▸ List.mem_map_of_mem hc
  by_cases hlow : c.toNat < 'A'.toNat
  · have hself : c.toLower = c := by
      have hval : ¬ (c.val ≥ 'A'.val ∧ c.val ≤ 'Z'.val) := by
        rintro ⟨hge, -⟩
        exact absurd (UInt32.le_iff_toNat_le.mp hge) (not_le.mpr hlow)
      simp only [Char.toLower]
      exact dif_neg hval
    exact hletters c (hself ▸ hin)
  · have hgt : ∀ d : Char, d.toNat < 'A'.toNat → c ≠ d := fun d hd heq => hlow (heq ▸ hd)
    have hspace : ∀ d : Char, d.toNat ≤ '\r'.toNat → d ≤ '\r' := fun d hd => hd
    refine ⟨?_, hgt '/' (by decide)⟩
    have htop : ¬ c ≤ '\r' := by
      intro hle
      have hle : c.toNat ≤ '\r'.toNat := hle
      have hbound : '\r'.toNat < 'A'.toNat := by decide
      omega
    simp [isExprSpace, hgt ' ' (by decide), htop]

/-- What the interface behind `dhcp://` is read as. -/
theorem interface_of_parseInterface {rest : Text} {address : DnsAddress} (hline : '\n' ∉ rest)
    (h : parseInterface qt rest = .ok address) :
    (rest.map Char.toLower = "auto".toList ∧ address = { type := "dhcp".toList }) ∨
      (IsInterface rest ∧ rest.map Char.toLower ≠ "auto".toList ∧
        address = { type := "dhcp".toList, iface := rest }) := by
  unfold parseInterface at h
  split at h
  next => simp at h
  next hne =>
  by_cases hre : ifaceRe rest = true
  · rw [if_neg (by simp [hre])] at h
    have hinterface : IsInterface rest := by
      rw [ifaceRe, wholeMatch_of_notMem hline] at hre
      exact ⟨hne, by simpa [hne] using hre⟩
    split at h
    next hauto => exact Or.inl ⟨hauto, (Except.ok.inj h).symm⟩
    next hauto => exact Or.inr ⟨hinterface, hauto, (Except.ok.inj h).symm⟩
  · simp [hre] at h

/-! ## Texts with and without a scheme -/

/-- A text with a scheme is read by that scheme. -/
theorem ParseDnsAddress_scheme {text scheme small rest : Text}
    (hsmall : small ∈ "dhcp".toList :: (plainSchemes ++ pathSchemes))
    (h : scheme.map Char.toLower = small) (htext : trimSpace text = scheme ++ "://".toList ++ rest) :
    ParseDnsAddress qt text =
      if small = "dhcp".toList then parseInterface qt rest else parseServer qt small rest := by
  obtain ⟨hlower, hcolon, hlocal⟩ := scheme_facts qt hsmall h
  have hcut : cutText "://".toList (scheme ++ "://".toList ++ rest) = some (scheme, rest) :=
    cutText_append hcolon rest
  have hne : scheme ++ "://".toList ++ rest ≠ [] := by simp
  have hknown : small ≠ "dhcp".toList → ¬ (small ∉ plainSchemes ∧ small ∉ pathSchemes) := by
    rintro hdhcp ⟨hplain, hpath⟩
    rcases List.mem_cons.mp hsmall with heq | hin
    · exact hdhcp heq
    · rcases List.mem_append.mp hin with hin | hin
      · exact hplain hin
      · exact hpath hin
  unfold ParseDnsAddress splitScheme parseScheme
  rw [htext]
  simp only [if_neg hne, hlocal rest, Bool.false_eq_true, if_false, hcut, hlower]
  by_cases hdhcp : small = "dhcp".toList
  · rw [if_pos hdhcp, if_pos hdhcp]
  · rw [if_neg hdhcp, if_neg hdhcp, if_neg (hknown hdhcp)]

/-- A text without a scheme is a server reached over UDP. -/
theorem ParseDnsAddress_bare {text : Text} (hne : trimSpace text ≠ [])
    (hlocal : startsWithLocal (trimSpace text) = false) (hslash : '/' ∉ trimSpace text) :
    ParseDnsAddress qt text = parseServer qt "udp".toList (trimSpace text) := by
  have hcut : cutText "://".toList (trimSpace text) = none :=
    cutText_eq_none (c := '/') (by decide) hslash
  have hudp : "udp".toList ≠ "dhcp".toList := by decide
  have hknown : ¬ ("udp".toList ∉ plainSchemes ∧ "udp".toList ∉ pathSchemes) := by decide
  unfold ParseDnsAddress splitScheme parseScheme
  simp only [if_neg hne, hlocal, Bool.false_eq_true, if_false, hcut, if_neg hudp, if_neg hknown]

/-! ## Addresses -/

/-- **What the grammar says is read.** -/
theorem ParseDnsAddress_of_Written {text : Text} {address : DnsAddress}
    (h : Written qt (trimSpace text) address) : ParseDnsAddress qt text = .ok address := by
  generalize htext : trimSpace text = trimmed at h
  cases h with
  | localResolver h =>
    have hne : trimmed ≠ [] := by
      rintro rfl
      exact absurd h (by decide)
    unfold ParseDnsAddress
    simp only [htext, if_neg hne, if_pos h]
  | auto hscheme h =>
    rename_i iface
    have hne : iface ≠ [] := by
      rintro rfl
      exact absurd h (by decide)
    have hre : ifaceRe iface = true := ifaceRe_of_IsInterface (isInterface_auto h)
    rw [ParseDnsAddress_scheme qt List.mem_cons_self hscheme htext, if_pos rfl]
    simp [parseInterface, hne, hre, h]
  | interface hscheme h hauto =>
    have hre := ifaceRe_of_IsInterface h
    rw [ParseDnsAddress_scheme qt List.mem_cons_self hscheme htext, if_pos rfl]
    rw [parseInterface, if_neg h.1, if_neg (by simp [hre]), if_neg hauto]
  | server hscheme hhost hport hpath hlocal =>
    rename_i prelude scheme host authority path portText port
    cases hscheme with
    | bare =>
      have hnil : path = [] := by
        rcases hpath with hnil | ⟨hin, -⟩
        · exact hnil
        · exact absurd hin (by decide)
      subst hnil
      rw [List.nil_append, List.append_nil] at htext
      have hbare := ParseDnsAddress_bare qt (htext ▸ hhost.ne_nil qt) (htext ▸ hlocal rfl)
        (htext ▸ hhost.slash_notMem qt hport)
      have hnone : IsPath "udp".toList [] := Or.inl rfl
      have hserver := parseServer_of_written qt hhost hport hnone
      rw [List.append_nil] at hserver
      rw [hbare, htext, hserver]
    | named hin =>
      rename_i written
      have hdhcp : written.map Char.toLower ≠ "dhcp".toList := by
        intro heq
        rw [heq] at hin
        exact absurd hin (by decide)
      rw [List.append_assoc (written ++ _)] at htext
      rw [ParseDnsAddress_scheme qt (List.mem_cons_of_mem _ hin) rfl htext, if_neg hdhcp,
        parseServer_of_written qt hhost hport hpath]

/-- **What is read is in the grammar.** -/
theorem Written_of_ParseDnsAddress {text : Text} {address : DnsAddress}
    (hline : '\n' ∉ trimSpace text) (h : ParseDnsAddress qt text = .ok address) :
    Written qt (trimSpace text) address := by
  unfold ParseDnsAddress at h
  generalize trimSpace text = trimmed at h hline
  simp only at h
  split at h
  next => simp at h
  next hne =>
  split at h
  next hlocal =>
    rw [← Except.ok.inj h]
    exact .localResolver hlocal
  next hlocal =>
  unfold splitScheme parseScheme at h
  cases hcut : cutText "://".toList trimmed with
  | none =>
    have hudp : "udp".toList ≠ "dhcp".toList := by decide
    have hknown : ¬ ("udp".toList ∉ plainSchemes ∧ "udp".toList ∉ pathSchemes) := by decide
    simp only [hcut, if_neg hudp, if_neg hknown] at h
    obtain ⟨host, portText, port, authority, path, rfl, hhost, hport, hpath, rfl⟩ :=
      written_of_parseServer qt hline h
    have hnil : path = [] := by
      rcases hpath with hnil | ⟨hin, -⟩
      · exact hnil
      · exact absurd hin (by decide)
    have hwritten := Written.server WrittenScheme.bare hhost hport hpath fun _ => by
      simpa [hnil] using hlocal
    exact hwritten
  | some parts =>
    obtain ⟨left, rest⟩ := parts
    have htext := eq_append_of_cutText hcut
    have hrest : '\n' ∉ rest := fun hmem => hline (by simp [htext, hmem])
    simp only [hcut] at h
    rw [htext]
    split at h
    next hdhcp =>
      have hsmall := (qt.toLower_eq left _ (schemes_plain _ List.mem_cons_self)).mp hdhcp
      rcases interface_of_parseInterface qt hrest h with ⟨hauto, rfl⟩ | ⟨hiface, hauto, rfl⟩
      · exact .auto hsmall hauto
      · exact .interface hsmall hiface hauto
    next =>
      split at h
      next => simp at h
      next hknown =>
        have hin : qt.toLower left ∈ plainSchemes ++ pathSchemes := by
          rw [not_and_or, not_not, not_not] at hknown
          exact List.mem_append.mpr hknown
        have hascii := schemes_plain _ (List.mem_cons_of_mem _ hin)
        have hsmall := (qt.toLower_eq left _ hascii).mp rfl
        obtain ⟨host, portText, port, authority, path, rfl, hhost, hport, hpath, rfl⟩ :=
          written_of_parseServer qt hrest h
        rw [← hsmall] at hin hpath ⊢
        rw [← List.append_assoc]
        exact .server (.named hin) hhost hport hpath fun hnil => by simp at hnil

theorem type_of_parseInterface {rest : Text} {address : DnsAddress}
    (h : parseInterface qt rest = .ok address) : address.type = "dhcp".toList := by
  unfold parseInterface at h
  split at h
  next => simp at h
  next =>
  split at h
  next => simp at h
  next =>
  split at h
  next => rw [← Except.ok.inj h]
  next => rw [← Except.ok.inj h]

theorem type_of_parseServer {scheme rest : Text} {address : DnsAddress}
    (h : parseServer qt scheme rest = .ok address) : address.type = scheme := by
  unfold parseServer at h
  simp only at h
  split at h
  next => simp at h
  next =>
    cases hread : parseHost qt (rest.takeWhile (· ≠ '/')) with
    | error reason => simp only [hread, bind, Except.bind, reduceCtorEq] at h
    | ok parts =>
      cases hnumber : parsePort qt parts.2 with
      | error reason => simp only [hread, hnumber, bind, Except.bind, reduceCtorEq] at h
      | ok port =>
        simp only [hread, hnumber, bind, Except.bind] at h
        rw [← Except.ok.inj h]

theorem type_of_parseScheme {scheme rest : Text} {address : DnsAddress}
    (h : parseScheme qt scheme rest = .ok address) :
    address.type ∈ "dhcp".toList :: (plainSchemes ++ pathSchemes) := by
  unfold parseScheme at h
  split at h
  next =>
    rw [type_of_parseInterface qt h]
    exact List.mem_cons_self
  next =>
    split at h
    next => simp at h
    next hknown =>
      rw [not_and_or, not_not, not_not] at hknown
      rw [type_of_parseServer qt h]
      exact List.mem_cons_of_mem _ (List.mem_append.mpr hknown)

/-- What is read as the local resolver begins with the letters of `local`. -/
theorem type_eq_local_iff {text : Text} {address : DnsAddress}
    (h : ParseDnsAddress qt text = .ok address) :
    address.type = "local".toList ↔ startsWithLocal (trimSpace text) = true := by
  have hother : ∀ scheme ∈ "dhcp".toList :: (plainSchemes ++ pathSchemes),
      scheme ≠ "local".toList := by decide
  unfold ParseDnsAddress at h
  simp only at h
  split at h
  next => simp at h
  next =>
    split at h
    next hlocal =>
      rw [← Except.ok.inj h]
      exact iff_of_true rfl hlocal
    next hlocal => exact iff_of_false (hother _ (type_of_parseScheme qt h)) hlocal

/-- **DNS addresses.** `ParseDnsAddress` reads a text of the grammar as what it says; what it
reads of a text in one line is in the grammar; and what it reads as the local resolver are the
texts that begin with the letters of `local`. -/
theorem ParseDnsAddress_exact (text : Text) :
    (∀ address, Written qt (trimSpace text) address → ParseDnsAddress qt text = .ok address) ∧
    ('\n' ∉ trimSpace text → ∀ address, ParseDnsAddress qt text = .ok address →
      Written qt (trimSpace text) address) ∧
    ∀ address, ParseDnsAddress qt text = .ok address →
      (address.type = "local".toList ↔ startsWithLocal (trimSpace text) = true) :=
  ⟨fun _ h => ParseDnsAddress_of_Written qt h,
    fun hline _ h => Written_of_ParseDnsAddress qt hline h,
    fun _ h => type_eq_local_iff qt h⟩

end Hosts

/-! ## A name that begins as `local` does -/

def asciiText : DnsText where
  toLower := List.map Char.toLower
  toUpper := List.map Char.toUpper
  toAce _ := []
  toInt text := (parseDecimal text).getD 0
  equalFolded a b := a.map Char.toLower == b.map Char.toLower
  IntOrRange _ _ _ := []
  ToInt text := (parseDecimal text).map fun n => n
  Ip _ := []
  translate text _ := text.toList
  Address := Empty
  setAddress _ := none
  toIPv4Address _ := none
  isInSubnet _ _ := false
  isIPv6 text := text = "2001:db8::1".toList
  toLower_eq _ _ _ := Iff.rfl
  toAce_line _ := by simp
  isIPv6_colons text h := by
    rw [decide_eq_true_eq] at h
    subst h
    decide
  isIPv6_head text h := by
    rw [decide_eq_true_eq] at h
    subst h
    decide

example : ParseDnsAddress asciiText " HTTPS://[2001:db8::1]:443/dns-query ".toList =
    .ok { type := "https".toList, server := "2001:db8::1".toList, port := 443,
          path := "/dns-query".toList } := by decide +kernel

/-- The name of a remote server is read as the local resolver. -/
theorem local_name_read_as_local :
    let name := "localdns.example.com".toList
    IsHostName (toAceHost asciiText.toQtFunctions name) ∧ name ≠ "local".toList ∧
      ParseDnsAddress asciiText name = .ok { type := "local".toList } := by
  refine ⟨(hostName_iff _).mp ?_, ?_, ?_⟩
  · decide +kernel
  · decide
  · decide +kernel

end Throned.Configs
