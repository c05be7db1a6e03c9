import Throned.Library.NetipText

/-!
# Writing addresses

`Addr.string` is `netip.Addr.String`: a dotted quad, groups with the first longest run of
two or more zeros as `::`, and an IPv4-mapped address with its quad behind `::ffff:`.
The texts are well formed, so `parseAddr` reads the address back.
-/

set_option autoImplicit false

namespace Throned.Library

namespace Netip

/-- The four groups of a half of an IPv6 address, the highest first. -/
def wordGroups (x : Word64) : List ℕ :=
  (List.range 4).map fun i => (x >>> (48 - 16 * i)).toNat % 65536

def quadText (v : ℕ) : Text :=
  decimal (v / 2 ^ 24) ++ '.' :: (decimal (v / 2 ^ 16 % 256) ++ '.' ::
    (decimal (v / 2 ^ 8 % 256) ++ '.' :: decimal (v % 256)))

/-- How many groups from the `i`-th on are zero. -/
def zerosAt (groups : List ℕ) (i : ℕ) : ℕ := ((groups.drop i).takeWhile (· = 0)).length

/-- The start and the length of the first longest run of two or more zeros; the length
is 0 when there is none. -/
def longestZeros (groups : List ℕ) : ℕ × ℕ :=
  (List.range 8).foldl
    (fun best i => if zerosAt groups i ≥ 2 ∧ zerosAt groups i > best.2 then
      (i, zerosAt groups i) else best) (255, 0)

def joinGroups : List ℕ → Text
  | [] => []
  | [g] => hex g
  | g :: gs => hex g ++ ':' :: joinGroups gs

def groupsText (groups : List ℕ) : Text :=
  let (start, length) := longestZeros groups
  if length = 0 then joinGroups groups
  else joinGroups (groups.take start) ++ ':' :: ':' :: joinGroups (groups.drop (start + length))

end Netip

open Netip

/-- `netip.Addr.String`. -/
def Addr.string : Addr → Text
  | .v4 value => quadText value.toNat
  | .v6 high low =>
    if (Addr.v6 high low).is4In6 then
      ':' :: ':' :: (hex 0xffff ++ ':' :: quadText (low.setWidth 32).toNat)
    else groupsText (wordGroups high ++ wordGroups low)

namespace Netip

/-! ## Pieces -/

theorem isGroup_hex {g : ℕ} (hg : g < 65536) : IsGroup (hex g) g :=
  ⟨parseHex_hex g, (length_hex_le (by omega)).mpr hg⟩

theorem toNat_foldl_groups (base a b c d : ℕ) :
    [a, b, c, d].foldl (fun value x => value * base + x) 0 =
      ((a * base + b) * base + c) * base + d := by
  simp

/-- A word is its four 16-bit groups. -/
theorem ofGroups_word (x : Word64) :
    ofGroups ((List.range 4).map fun i => (x >>> (48 - 16 * i)).toNat % 65536) = x := by
  have hx := x.isLt
  simp only [show List.range 4 = [0, 1, 2, 3] from rfl, List.map_cons, List.map_nil, ofGroups,
    toNat_foldl_groups, BitVec.toNat_ushiftRight, Nat.shiftRight_eq_div_pow]
  apply BitVec.eq_of_toNat_eq
  rw [BitVec.toNat_ofNat]
  omega

theorem isOctet_decimal {v : ℕ} (h : v ≤ 255) : IsOctet (decimal v) v :=
  ⟨parseDecimal_decimal v, (length_decimal_le (by omega)).mpr (by omega), h,
    head_decimal_of_length⟩

theorem isQuad_quadText {v : ℕ} (hv : v < 2 ^ 32) :
    IsQuad (quadText v) (v / 2 ^ 24) (v / 2 ^ 16 % 256) (v / 2 ^ 8 % 256) (v % 256) :=
  ⟨_, _, _, _, isOctet_decimal (by omega), isOctet_decimal (by omega),
    isOctet_decimal (by omega), isOctet_decimal (by omega), rfl⟩

theorem wordGroups_lt (x : Word64) : ∀ g ∈ wordGroups x, g < 65536 := by
  intro g hg
  obtain ⟨i, -, rfl⟩ := List.mem_map.mp hg
  exact Nat.mod_lt _ (by omega)

theorem length_wordGroups (x : Word64) : (wordGroups x).length = 4 := by
  simp [wordGroups]

/-- An address is the address of its groups. -/
theorem addrOfGroups_wordGroups (high low : Word64) :
    addrOfGroups (wordGroups high ++ wordGroups low) = .v6 high low := by
  rw [addrOfGroups, List.take_left' (length_wordGroups high),
    List.drop_left' (length_wordGroups high), wordGroups, wordGroups, ofGroups_word, ofGroups_word]

/-! ## Groups -/

theorem isGroups_joinGroups (tail : Bool) {groups : List ℕ} (hne : groups ≠ [])
    (hgs : ∀ g ∈ groups, g < 65536) : IsGroups tail (joinGroups groups) groups := by
  induction groups with
  | nil => exact absurd rfl hne
  | cons g gs ih =>
    have hg := isGroup_hex (hgs g List.mem_cons_self)
    cases gs with
    | nil => exact .last hg
    | cons g' gs => exact .cons hg (ih (by simp) fun x hx => hgs x (List.mem_cons_of_mem _ hx))

theorem isSide_joinGroups (tail : Bool) {groups : List ℕ} (hgs : ∀ g ∈ groups, g < 65536) :
    IsSide tail (joinGroups groups) groups := by
  by_cases hne : groups = []
  · subst hne
    exact Or.inl ⟨rfl, rfl⟩
  · exact Or.inr (isGroups_joinGroups tail hne hgs)

/-- The run found is a run of zeros, or there is none. -/
theorem longestZeros_spec (groups : List ℕ) :
    (longestZeros groups).2 = 0 ∨
      (longestZeros groups).2 = zerosAt groups (longestZeros groups).1 := by
  unfold longestZeros
  suffices h : ∀ (is : List ℕ) (best : ℕ × ℕ), best.2 = 0 ∨ best.2 = zerosAt groups best.1 →
      let found := is.foldl (fun best i => if zerosAt groups i ≥ 2 ∧ zerosAt groups i > best.2 then
        (i, zerosAt groups i) else best) best
      found.2 = 0 ∨ found.2 = zerosAt groups found.1 from h _ _ (Or.inl rfl)
  intro is
  induction is with
  | nil => exact fun _ h => h
  | cons i is ih =>
    intro best h
    rw [List.foldl_cons]
    apply ih
    split
    · exact Or.inr rfl
    · exact h

theorem drop_eq_zeros (groups : List ℕ) (i : ℕ) :
    groups.drop i =
      List.replicate (zerosAt groups i) 0 ++ groups.drop (i + zerosAt groups i) := by
  have hzero : (groups.drop i).takeWhile (· = 0) = List.replicate (zerosAt groups i) 0 :=
    List.eq_replicate_iff.mpr ⟨rfl, fun g hg => by simpa using List.mem_takeWhile_imp hg⟩
  rw [← hzero, ← List.drop_drop]
  exact (List.prefix_iff_eq_append.mp (List.takeWhile_prefix _)).symm

/-- **Eight groups are written as an IPv6 text of them.** -/
theorem isIPv6_groupsText {groups : List ℕ} (hlen : groups.length = 8)
    (hgs : ∀ g ∈ groups, g < 65536) : IsIPv6 (groupsText groups) groups := by
  have hspec := longestZeros_spec groups
  unfold groupsText
  rcases hbest : longestZeros groups with ⟨start, length⟩
  rw [hbest] at hspec
  simp only at hspec ⊢
  by_cases hzero : length = 0
  · rw [if_pos hzero]
    exact .full (isGroups_joinGroups true (by rintro rfl; simp at hlen) hgs) hlen
  · rw [if_neg hzero]
    have hrun : length = zerosAt groups start := hspec.resolve_left hzero
    have hsplit := drop_eq_zeros groups start
    rw [← hrun] at hsplit
    have hstart : start < 8 := by
      by_contra hge
      have : groups.drop start = [] := List.drop_eq_nil_of_le (by omega)
      rw [this] at hsplit
      have := congrArg List.length hsplit
      simp only [List.length_nil, List.length_append, List.length_replicate] at this
      omega
    have hsum := congrArg List.length hsplit
    simp only [List.length_drop, List.length_append, List.length_replicate, hlen] at hsum
    have hgap := @IsIPv6.gap _ _ (groups.take start) (groups.drop (start + length))
      (isSide_joinGroups false fun g hg => hgs g (List.mem_of_mem_take hg))
      (isSide_joinGroups true fun g hg => hgs g (List.mem_of_mem_drop hg))
      (by rw [List.length_take, List.length_drop]; omega)
    have hwidth : 8 - (groups.take start).length - (groups.drop (start + length)).length =
        length := by
      rw [List.length_take, List.length_drop]
      omega
    rw [hwidth, List.append_assoc, ← hsplit, List.take_append_drop] at hgap
    exact hgap

/-! ## Addresses -/

theorem isQuad_string (value : BitVec 32) :
    ∃ a b c d, IsQuad (Addr.v4 value).string a b c d ∧
      ((a * 256 + b) * 256 + c) * 256 + d = value.toNat := by
  have hlt := value.isLt
  exact ⟨_, _, _, _, isQuad_quadText hlt, by omega⟩

/-- **`netip` writes an IPv6 address as a well-formed text of its groups.** -/
theorem isIPv6_string (high low : Word64) :
    IsIPv6 (Addr.v6 high low).string (wordGroups high ++ wordGroups low) := by
  by_cases hmapped : (Addr.v6 high low).is4In6 = true
  · rw [Addr.string, if_pos hmapped]
    simp only [Addr.is4In6, Bool.and_eq_true, beq_iff_eq] at hmapped
    obtain ⟨rfl, hlow⟩ := hmapped
    have hnat := congrArg BitVec.toNat hlow
    rw [BitVec.toNat_ushiftRight, Nat.shiftRight_eq_div_pow] at hnat
    have hffff : (0xffff : Word64).toNat = 0xffff := rfl
    rw [hffff] at hnat
    have hv : (low.setWidth 32).toNat = low.toNat % 2 ^ 32 := BitVec.toNat_setWidth ..
    have hquad := isQuad_quadText (v := (low.setWidth 32).toNat) (low.setWidth 32).isLt
    have hgroups : IsGroups true (hex 0xffff ++ ':' :: quadText (low.setWidth 32).toNat) _ :=
      .cons (isGroup_hex (by omega)) (.quad rfl hquad)
    have hgap := @IsIPv6.gap [] _ [] _ (Or.inl ⟨rfl, rfl⟩) (Or.inr hgroups) (by simp)
    have hhigh : wordGroups 0 = [0, 0, 0, 0] := rfl
    have hwords : wordGroups low =
        [0, 0xffff, low.toNat / 2 ^ 16 % 65536, low.toNat % 65536] := by
      simp only [wordGroups, show List.range 4 = [0, 1, 2, 3] from rfl, List.map_cons,
        List.map_nil, BitVec.toNat_ushiftRight, Nat.shiftRight_eq_div_pow, List.cons.injEq,
        Nat.reduceMul, Nat.reduceSub, Nat.pow_zero, Nat.div_one, and_true]
      omega
    rw [hhigh, hwords]
    convert hgap using 1
    · rfl
    · simp only [List.length_cons, List.length_nil, Nat.reduceAdd, Nat.reduceSub, List.replicate,
        List.cons_append, List.nil_append, List.cons.injEq, and_true, true_and]
      omega
  · rw [Addr.string, if_neg hmapped]
    refine isIPv6_groupsText (by simp [length_wordGroups]) fun g hg => ?_
    exact (List.mem_append.mp hg).elim (wordGroups_lt high g) (wordGroups_lt low g)

/-- **An address reads back.** -/
theorem parseAddr_string (a : Addr) : parseAddr a.string = some (a, []) := by
  cases a with
  | v4 value =>
    obtain ⟨a, b, c, d, hquad, hvalue⟩ := isQuad_string value
    rw [parseAddr_of_isQuad hquad, ofOctets]
    congr 3
    apply BitVec.eq_of_toNat_eq
    rw [toNat_foldl_groups, hvalue, BitVec.toNat_ofNat, Nat.mod_eq_of_lt value.isLt]
  | v6 high low =>
    rw [parseAddr_of_isIPv6 (isIPv6_string high low), addrOfGroups_wordGroups]

/-- **A prefix reads back.** -/
theorem parsePrefix_string (p : Prefix) :
    parsePrefix (p.addr.string ++ '/' :: decimal p.bits) = some p := by
  refine parsePrefix_append ?_ (parseAddr_string p.addr) (parseBits_decimal p.bits_le) p.bits_le
  intro hslash
  exact absurd (decimalDigit_of_mem_decimal hslash) (by decide)

end Netip

end Throned.Library
