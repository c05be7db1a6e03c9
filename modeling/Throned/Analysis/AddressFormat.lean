import Throned.Analysis.AddressText
import Throned.Library.NetipFormat

/-!
# Writing addresses

`ipListParseFormat` writes a well-formed text of the address, so both parsers read the
same address back.
-/

set_option autoImplicit false

namespace Throned.Scanner

open Throned.Library Throned.Library.Netip

/-! ## The longest run of zero groups -/

/-- The best run is a run of zero groups. -/
def ZeroRun (groups : List ℕ) : Option ℕ × ℕ → Prop
  | (none, length) => 1 ≤ length
  | (some start, length) => 1 ≤ length ∧ ∃ left right,
      groups = left ++ (List.replicate length 0 ++ right) ∧ left.length = start

theorem ZeroRun.one_le {groups : List ℕ} {best : Option ℕ × ℕ} (h : ZeroRun groups best) :
    1 ≤ best.2 := by
  rcases best with ⟨_ | start, length⟩
  · exact h
  · exact h.1

theorem cons_takeWhile_zero (rest : List ℕ) :
    0 :: rest = List.replicate (1 + (rest.takeWhile (· = 0)).length) 0 ++
      rest.drop (rest.takeWhile (· = 0)).length := by
  have hzero : rest.takeWhile (· = 0) = List.replicate (rest.takeWhile (· = 0)).length 0 :=
    List.eq_replicate_iff.mpr ⟨rfl, fun g hg => by simpa using List.mem_takeWhile_imp hg⟩
  rw [Nat.add_comm, List.replicate_succ, List.cons_append, ← hzero]
  congr 1
  exact (List.prefix_iff_eq_append.mp (List.takeWhile_prefix _)).symm

theorem zeroRun_bestZeroRun (fuel : ℕ) :
    ∀ {i : ℕ} {pre rest : List ℕ} {best : Option ℕ × ℕ}, pre.length = i →
      ZeroRun (pre ++ rest) best → ZeroRun (pre ++ rest) (bestZeroRun fuel i rest best) := by
  induction fuel with
  | zero =>
    intro i pre rest best _ h
    rw [bestZeroRun]
    exact h
  | succ fuel ih =>
    intro i pre rest best hi h
    cases rest with
    | nil =>
      rw [bestZeroRun]
      · exact h
      · simp
    | cons group rest =>
      obtain ⟨bestStart, bestLength⟩ := best
      rw [bestZeroRun]
      split
      · have hnext := @ih (i + 1) (pre ++ [group]) rest (bestStart, bestLength) (by simp [hi])
          (by simpa using h)
        simpa using hnext
      · rename_i hgroup
        obtain rfl : group = 0 := not_not.mp hgroup
        simp only [Nat.add_sub_cancel_left]
        have hrest := cons_takeWhile_zero rest
        generalize (rest.takeWhile (· = 0)).length = n at hrest ⊢
        have hsplit : pre ++ 0 :: rest = (pre ++ List.replicate (1 + n) 0) ++ rest.drop n := by
          rw [List.append_assoc, ← hrest]
        rw [hsplit] at h ⊢
        apply ih (by simp [hi])
        have hone := h.one_le
        split
        · rename_i hrun
          exact ⟨by omega, pre, rest.drop n, List.append_assoc .., hi⟩
        · exact h

/-! ## Groups with colons -/

/-- What the loop writes between `out` and the next group. -/
def groupSeparator (out : Text) : Text :=
  if out ≠ [] ∧ out.getLast? ≠ some ':' then [':'] else []

theorem formatGroups_nil (best : Option ℕ × ℕ) (fuel i : ℕ) (out : Text) :
    formatGroups best fuel i [] out = out := by
  cases fuel <;> rfl

theorem formatGroups_group {best : Option ℕ × ℕ} {i : ℕ} (hbest : best.1 ≠ some i) (fuel : ℕ)
    (group : ℕ) (rest : List ℕ) (out : Text) :
    formatGroups best (fuel + 1) i (group :: rest) out =
      formatGroups best fuel (i + 1) rest (out ++ groupSeparator out ++ hex group) := by
  rw [formatGroups, if_neg hbest]
  unfold groupSeparator
  split <;> simp

theorem groupSeparator_hex (out : Text) (g : ℕ) : groupSeparator (out ++ hex g) = [':'] := by
  refine if_pos ⟨by simp, fun h => ?_⟩
  rw [List.getLast?_append_of_ne_nil _ (hex_ne_nil g)] at h
  have := hexDigit_of_mem_hex (List.mem_of_getLast? h)
  rw [hexDigit_colon] at this
  cases this

/-- The loop writes groups outside the best run with colons between them. -/
theorem formatGroups_run {best : Option ℕ × ℕ} (tail : Bool) (rest : List ℕ) (fuel : ℕ)
    {gs : List ℕ} (hgs : ∀ g ∈ gs, g < 65536) (hne : gs ≠ []) :
    ∀ {i : ℕ} {out : Text}, (∀ j < gs.length, best.1 ≠ some (i + j)) →
      ∃ s, IsGroups tail s gs ∧
        formatGroups best (gs.length + fuel) i (gs ++ rest) out =
          formatGroups best fuel (i + gs.length) rest (out ++ groupSeparator out ++ s) := by
  induction gs with
  | nil => exact absurd rfl hne
  | cons g gs ih =>
    intro i out hbest
    have hg := isGroup_hex (hgs g (List.mem_cons_self ..))
    have hfuel : (g :: gs).length + fuel = gs.length + fuel + 1 := by
      rw [List.length_cons]
      omega
    rw [hfuel, List.cons_append, formatGroups_group (by simpa using hbest 0 (by simp))]
    cases gs with
    | nil => exact ⟨hex g, .last hg, by simp⟩
    | cons g' gs =>
      obtain ⟨s, hs, heq⟩ := @ih (fun x hx => hgs x (List.mem_cons_of_mem _ hx)) (by simp)
        (i + 1) (out ++ groupSeparator out ++ hex g) fun j hj => by
          have := hbest (j + 1) (by simpa using hj)
          rwa [← Nat.add_assoc, Nat.add_right_comm] at this
      refine ⟨hex g ++ ':' :: s, .cons hg hs, ?_⟩
      rw [heq, groupSeparator_hex]
      simp only [List.length_cons, List.append_assoc, List.singleton_append]
      congr 1
      omega

theorem formatGroups_best {start length : ℕ} (hlen : 1 ≤ length) (fuel : ℕ) (right : List ℕ)
    (out : Text) :
    formatGroups (some start, length) (fuel + 1) start (List.replicate length 0 ++ right) out =
      formatGroups (some start, length) fuel (start + length) right (out ++ [':', ':']) := by
  obtain ⟨n, rfl⟩ : ∃ n, length = n + 1 := ⟨length - 1, by omega⟩
  rw [List.replicate_succ, List.cons_append, formatGroups, if_pos rfl, Nat.add_sub_cancel,
    List.drop_left' (by simp)]

/-- A side of the best run. -/
theorem formatGroups_side {best : Option ℕ × ℕ} (tail : Bool) (rest : List ℕ) (fuel : ℕ)
    {gs : List ℕ} (hgs : ∀ g ∈ gs, g < 65536) {i : ℕ} {out : Text}
    (hout : groupSeparator out = []) (hbest : ∀ j < gs.length, best.1 ≠ some (i + j)) :
    ∃ s, IsSide tail s gs ∧
      formatGroups best (gs.length + fuel) i (gs ++ rest) out =
        formatGroups best fuel (i + gs.length) rest (out ++ s) := by
  by_cases hne : gs = []
  · subst hne
    exact ⟨[], Or.inl ⟨rfl, rfl⟩, by simp⟩
  · obtain ⟨s, hs, heq⟩ := @formatGroups_run _ tail rest fuel _ hgs hne _ out hbest
    exact ⟨s, Or.inr hs, by rw [heq, hout, List.append_nil]⟩

/-- **Eight groups are written as an IPv6 text of them.** -/
theorem isIPv6_formatGroups {groups : List ℕ} (hgs : ∀ g ∈ groups, g < 65536)
    (hlen : groups.length = 8) :
    IsIPv6 (formatGroups (bestZeroRun 8 0 groups (none, 1)) 8 0 groups []) groups := by
  have hrun := @zeroRun_bestZeroRun 8 0 [] groups (none, 1) rfl (Nat.le_refl 1)
  rw [List.nil_append] at hrun
  revert hrun
  generalize bestZeroRun 8 0 groups (none, 1) = best
  intro hrun
  rcases best with ⟨_ | start, length⟩
  · obtain ⟨s, hs, heq⟩ := @formatGroups_run (none, length) true [] 0 _ hgs
      (by rintro rfl; simp at hlen) 0 [] (by simp)
    rw [hlen, List.append_nil, formatGroups_nil] at heq
    rw [heq]
    exact .full hs hlen
  · obtain ⟨hone, left, right, rfl, rfl⟩ := hrun
    simp only [List.length_append, List.length_replicate] at hlen
    obtain ⟨l, hl, hleft⟩ := @formatGroups_side (some left.length, length) false
      (List.replicate length 0 ++ right) (8 - left.length) left
      (fun g hg => hgs g (List.mem_append_left _ hg)) 0 [] rfl
      fun j hj h => by simp only [Nat.zero_add, Option.some.injEq] at h; omega
    obtain ⟨r, hr, hright⟩ := @formatGroups_side (some left.length, length) true []
      (length - 1) right
      (fun g hg => hgs g (List.mem_append_right _ (List.mem_append_right _ hg)))
      (left.length + length) (l ++ [':', ':']) (if_neg (by simp)) fun j hj h => by
        simp only [Option.some.injEq] at h
        omega
    have hbest := @formatGroups_best left.length _ hone (right.length + (length - 1)) right l
    have hfuel : left.length + (8 - left.length) = 8 := by omega
    have hfuel' : 8 - left.length = right.length + (length - 1) + 1 := by omega
    rw [hfuel, List.nil_append, Nat.zero_add, hfuel', hbest] at hleft
    rw [List.append_nil, formatGroups_nil] at hright
    rw [hleft, hright, List.append_assoc]
    have hgap := IsIPv6.gap hl hr (by omega)
    have hzeros : 8 - left.length - right.length = length := by omega
    rw [hzeros, List.append_assoc] at hgap
    exact hgap

/-! ## Addresses -/

/-- The address as `netip` has it. -/
def IpListParseAddr.toAddr (a : IpListParseAddr) : Addr :=
  if a.v6 then .v6 a.hi a.lo else .v4 (a.lo.setWidth 32)

/-- IPv4 lives in the low 32 bits. -/
def IpListParseAddr.Valid (a : IpListParseAddr) : Prop :=
  a.v6 = false → a.hi = 0 ∧ a.lo.toNat < 2 ^ 32

theorem addrGroups_lt (a : IpListParseAddr) : ∀ g ∈ addrGroups a, g < 65536 := by
  intro g hg
  simp only [addrGroups, List.mem_append, List.mem_map] at hg
  rcases hg with ⟨i, -, rfl⟩ | ⟨i, -, rfl⟩ <;> exact Nat.mod_lt _ (by omega)

theorem length_addrGroups (a : IpListParseAddr) : (addrGroups a).length = 8 := by
  simp [addrGroups]

theorem ofGroups_addrGroups (a : IpListParseAddr) :
    ofGroups ((addrGroups a).take 4) = a.hi ∧ ofGroups ((addrGroups a).drop 4) = a.lo := by
  constructor
  · rw [addrGroups, List.take_left' (by simp), ofGroups_word]
  · rw [addrGroups, List.drop_left' (by simp), ofGroups_word]

/-- An IPv4 address is written as its quad. -/
theorem isQuad_format {a : IpListParseAddr} (h : a.v6 = false) :
    ∃ p q r t, IsQuad (ipListParseFormat a) p q r t ∧
      ((p * 256 + q) * 256 + r) * 256 + t = a.lo.toNat % 2 ^ 32 := by
  have hlt : a.lo.toNat % 2 ^ 32 < 2 ^ 32 := Nat.mod_lt _ (by omega)
  simp only [ipListParseFormat, h, Bool.not_false, if_true]
  generalize a.lo.toNat % 2 ^ 32 = v at hlt ⊢
  refine ⟨v / 2 ^ 24, v / 2 ^ 16 % 256, v / 2 ^ 8 % 256, v % 256,
    ⟨_, _, _, _, isOctet_decimal (by omega), isOctet_decimal (by omega),
      isOctet_decimal (by omega), isOctet_decimal (by omega), ?_⟩, by omega⟩
  simp

/-- An IPv6 address is written as its groups. -/
theorem isIPv6_format {a : IpListParseAddr} (h : a.v6 = true) :
    IsIPv6 (ipListParseFormat a) (addrGroups a) := by
  simp only [ipListParseFormat, h, Bool.not_true, Bool.false_eq_true, if_false]
  exact isIPv6_formatGroups (addrGroups_lt a) (length_addrGroups a)

theorem takeWhile_percent {s : Text} (h : '%' ∉ s) : s.takeWhile (· ≠ '%') = s :=
  List.takeWhile_eq_self_iff.mpr fun x hx => by simpa using ne_of_mem_of_not_mem hx h

theorem IsQuad.percent_not_mem {s : Text} {a b c d : ℕ} (h : IsQuad s a b c d) : '%' ∉ s :=
  not_mem_percent fun x hx => (h.addrChar x hx).imp hexDigit_isSome_of_decimalDigit Or.inr

/-- **What the parser reads, `netip` reads as the same address**, up to the zone, which
the parser drops. -/
theorem ipListParseAddress_spec {s : Text} {a : IpListParseAddr}
    (h : ipListParseAddress s = some a) :
    a.Valid ∧ parseAddr (s.takeWhile (· ≠ '%')) = some (a.toAddr, []) := by
  unfold ipListParseAddress at h
  split at h
  · obtain ⟨gs, hgs, rfl⟩ := Option.map_eq_some_iff.mp h
    exact ⟨fun h => Bool.noConfusion h, parseAddr_of_isIPv6 (ipListParseV6_eq_some.mp hgs)⟩
  · obtain ⟨v, hv, rfl⟩ := Option.map_eq_some_iff.mp h
    obtain ⟨p, q, r, t, hquad, rfl⟩ := ipListParseV4_eq_some.mp hv
    obtain ⟨hp, hq, hr, ht⟩ := hquad.le
    have hlt : ((p * 256 + q) * 256 + r) * 256 + t < 2 ^ 32 := by omega
    rw [takeWhile_percent (IsQuad.percent_not_mem hquad), parseAddr_of_isQuad hquad]
    refine ⟨fun _ => ⟨rfl, ?_⟩, ?_⟩
    · rw [BitVec.toNat_ofNat]
      omega
    · simp only [IpListParseAddr.toAddr, Bool.false_eq_true, if_false, ofOctets,
        toNat_foldl_groups, Option.some.injEq, Prod.mk.injEq, Addr.v4.injEq, and_true]
      apply BitVec.eq_of_toNat_eq
      rw [BitVec.toNat_setWidth, BitVec.toNat_ofNat, BitVec.toNat_ofNat]
      omega

/-- **What is written reads back in both parsers.** -/
theorem ipListParseFormat_spec {a : IpListParseAddr} (ha : a.Valid) :
    ipListParseAddress (ipListParseFormat a) = some a ∧
      parseAddr (ipListParseFormat a) = some (a.toAddr, []) := by
  have hparse : ipListParseAddress (ipListParseFormat a) = some a := by
    obtain ⟨v6, hi, lo⟩ := a
    cases v6 with
    | false =>
      obtain ⟨hhi, hlo⟩ := ha rfl
      obtain ⟨p, q, r, t, hquad, hval⟩ := isQuad_format (a := ⟨false, hi, lo⟩) rfl
      simp only at hhi hlo hval
      rw [Nat.mod_eq_of_lt hlo] at hval
      rw [ipListParseAddress, if_neg hquad.colon_not_mem,
        ipListParseV4_eq_some.mpr ⟨p, q, r, t, hquad, rfl⟩, hval, Option.map_some,
        BitVec.ofNat_toNat, BitVec.setWidth_eq, hhi]
    | true =>
      have hv6 := isIPv6_format (a := ⟨true, hi, lo⟩) rfl
      have hgroups := ofGroups_addrGroups ⟨true, hi, lo⟩
      have hcolon : ':' ∈ ipListParseFormat ⟨true, hi, lo⟩ := by
        obtain ⟨p, t, hs, -⟩ := hv6.eq_append
        rw [hs]
        simp
      rw [ipListParseAddress, if_pos hcolon, takeWhile_percent (not_mem_percent hv6.addrChar),
        ipListParseV6_eq_some.mpr hv6, Option.map_some, hgroups.1, hgroups.2]
  refine ⟨hparse, ?_⟩
  have hnetip := (ipListParseAddress_spec hparse).2
  rwa [takeWhile_percent] at hnetip
  cases hv6 : a.v6 with
  | false =>
    obtain ⟨p, q, r, t, hquad, -⟩ := isQuad_format hv6
    exact IsQuad.percent_not_mem hquad
  | true => exact not_mem_percent (isIPv6_format hv6).addrChar

/-- A written address has no character but its digits, dots and colons. -/
theorem addrChar_format (a : IpListParseAddr) : ∀ x ∈ ipListParseFormat a, IsAddrChar x := by
  cases hv6 : a.v6 with
  | false =>
    obtain ⟨p, q, r, t, hquad, -⟩ := isQuad_format hv6
    exact fun x hx => (hquad.addrChar x hx).imp hexDigit_isSome_of_decimalDigit Or.inr
  | true => exact (isIPv6_format hv6).addrChar

end Throned.Scanner
