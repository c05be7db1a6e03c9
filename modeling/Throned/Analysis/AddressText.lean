import Throned.Library.NetipText
import Throned.Model.IpListParse

/-!
# Reading and writing addresses

The list parser reads exactly the well-formed address texts, and as `netip` does; what it
writes is well-formed again and reads back as the same address in both languages.
-/

set_option autoImplicit false

namespace Throned.Scanner

open Throned.Library Throned.Library.Netip

/-! ## Dotted quads -/

theorem ipListParseDecimal_eq_some {text : Text} {maxDigits v : ℕ} :
    ipListParseDecimal text maxDigits = some v ↔
      parseDecimal text = some v ∧ text.length ≤ maxDigits := by
  unfold ipListParseDecimal
  split
  · rename_i h
    rcases h with rfl | h
    · simp [parseDecimal]
    · simp [Nat.not_le_of_lt h]
  · rename_i h
    simp only [not_or, Nat.not_lt] at h
    simp [h.2]

theorem ipListParseV4Parts_nil {parts value v : ℕ} :
    ipListParseV4Parts parts value [] = some v ↔ parts = 4 ∧ value = v := by
  rw [ipListParseV4Parts]
  split <;> simp_all

theorem ipListParseV4Parts_cons {parts value v : ℕ} {p : Text} {rest : List Text} :
    ipListParseV4Parts parts value (p :: rest) = some v ↔
      ∃ octet, IsOctet p octet ∧ parts < 4 ∧
        ipListParseV4Parts (parts + 1) (value * 256 + octet) rest = some v := by
  rw [ipListParseV4Parts]
  cases hp : ipListParseDecimal p 3 with
  | none =>
    simp only [reduceCtorEq, false_iff, not_exists, not_and]
    intro octet h
    rw [ipListParseDecimal_eq_some.mpr ⟨h.1, h.2.1⟩] at hp
    cases hp
  | some octet =>
    obtain ⟨hread, hlen⟩ := ipListParseDecimal_eq_some.mp hp
    have huniq : ∀ {w}, IsOctet p w → w = octet := fun h => by
      have := h.1.symm.trans hread
      simpa using this
    constructor
    · intro h
      simp only at h
      split at h
      · cases h
      · split at h
        · cases h
        · split at h
          · cases h
          · rename_i h255 hzero hparts
            exact ⟨octet, ⟨hread, hlen, by omega, fun h1 h2 => hzero ⟨h1, h2⟩⟩, by omega, h⟩
    · rintro ⟨w, hw, hparts, h⟩
      obtain rfl := huniq hw
      simp only
      rw [if_neg (by have := hw.2.2.1; omega), if_neg (fun h => hw.2.2.2 h.1 h.2),
        if_neg (by omega), h]

theorem splitOn_quad {p q r t : Text} (hp : '.' ∉ p) (hq : '.' ∉ q) (hr : '.' ∉ r)
    (ht : '.' ∉ t) : (p ++ '.' :: (q ++ '.' :: (r ++ '.' :: t))).splitOn '.' = [p, q, r, t] := by
  rw [List.splitOn_append_cons_self_of_not_mem hp, List.splitOn_append_cons_self_of_not_mem hq,
    List.splitOn_append_cons_self_of_not_mem hr, List.splitOn_eq_singleton ht]

/-- The parser reads the dotted quads. -/
theorem ipListParseV4_eq_some {s : Text} {v : ℕ} :
    ipListParseV4 s = some v ↔
      ∃ a b c d, IsQuad s a b c d ∧ v = ((a * 256 + b) * 256 + c) * 256 + d := by
  unfold ipListParseV4
  constructor
  · intro h
    have hs := @List.intercalate_splitOn _ s _ _ '.'
    revert h hs
    generalize s.splitOn '.' = pieces
    intro h hs
    -- four parts and no fifth
    rcases pieces with _ | ⟨p, _ | ⟨q, _ | ⟨r, _ | ⟨t, _ | ⟨u, rest⟩⟩⟩⟩⟩ <;>
      simp only [ipListParseV4Parts_cons, ipListParseV4Parts_nil] at h
    · omega
    · obtain ⟨_, _, _, h, _⟩ := h
      omega
    · obtain ⟨_, _, _, _, _, _, h, _⟩ := h
      omega
    · obtain ⟨_, _, _, _, _, _, _, _, _, h, _⟩ := h
      omega
    · obtain ⟨a, hp, -, b, hq, -, c, hr, -, d, ht, -, -, h⟩ := h
      refine ⟨a, b, c, d, ⟨p, q, r, t, hp, hq, hr, ht, ?_⟩, by omega⟩
      rw [← hs]
      simp [List.intercalate]
    · obtain ⟨_, _, _, _, _, _, _, _, _, _, _, _, _, _, h, _⟩ := h
      omega
  · rintro ⟨a, b, c, d, ⟨p, q, r, t, hp, hq, hr, ht, rfl⟩, rfl⟩
    rw [splitOn_quad hp.dot_not_mem hq.dot_not_mem
      hr.dot_not_mem ht.dot_not_mem]
    simp only [ipListParseV4Parts_cons, ipListParseV4Parts_nil]
    exact ⟨a, hp, by omega, b, hq, by omega, c, hr, by omega, d, ht, by omega, by simp⟩

/-! ## Groups -/

theorem v4_groups {a b c d : ℕ} (hc : c ≤ 255) (hd : d ≤ 255) :
    (((a * 256 + b) * 256 + c) * 256 + d) / 65536 = a * 256 + b ∧
      (((a * 256 + b) * 256 + c) * 256 + d) % 65536 = c * 256 + d := by
  omega

/-- What the group loop reads is groups. -/
theorem isGroups_of_ipListParseV6Groups {tail : Bool} {pieces : List Text} :
    ∀ {groups gs : List ℕ}, pieces ≠ [] →
      ipListParseV6Groups tail groups pieces = some gs →
      ∃ new, gs = groups ++ new ∧ IsGroups tail ([':'].intercalate pieces) new := by
  induction pieces with
  | nil => exact fun h => absurd rfl h
  | cons p rest ih =>
    intro groups gs _ h
    rw [ipListParseV6Groups] at h
    split at h
    · -- the dotted tail
      rename_i hlast
      obtain ⟨rfl, htail, -⟩ := hlast
      split at h
      · cases h
      · obtain ⟨v4, hv4, rfl⟩ := Option.map_eq_some_iff.mp h
        obtain ⟨a, b, c, d, hquad, rfl⟩ := ipListParseV4_eq_some.mp hv4
        obtain ⟨-, -, hc, hd⟩ := hquad.le
        rw [(v4_groups hc hd).1, (v4_groups hc hd).2]
        refine ⟨_, rfl, ?_⟩
        rw [List.intercalate_singleton]
        exact .quad htail hquad
    · split at h
      · cases h
      · rename_i hshape
        cases hv : parseHex p with
        | none => simp [hv] at h
        | some v =>
          rw [hv] at h
          have hgroup : IsGroup p v := ⟨hv, by omega⟩
          cases rest with
          | nil =>
            simp only [ipListParseV6Groups, Option.some.injEq] at h
            exact ⟨[v], h.symm, by rw [List.intercalate_singleton]; exact .last hgroup⟩
          | cons q rest =>
            obtain ⟨new, rfl, hnew⟩ := ih (by simp) h
            refine ⟨v :: new, by simp, ?_⟩
            rw [List.intercalate_cons_cons, List.append_assoc, List.singleton_append]
            exact .cons hgroup hnew

/-- The group loop reads groups that fit. -/
theorem ipListParseV6Groups_of_isGroups {tail : Bool} {s : Text} {gs : List ℕ}
    (h : IsGroups tail s gs) :
    ∀ {groups : List ℕ}, groups.length + gs.length ≤ 8 →
      ipListParseV6Groups tail groups (s.splitOn ':') = some (groups ++ gs) := by
  have hdigit : ∀ {p : Text} {v : ℕ}, IsGroup p v → ':' ∉ p ∧ '.' ∉ p := fun h =>
    ⟨h.not_mem hexDigit_colon, h.not_mem (by decide)⟩
  induction h with
  | last h =>
    intro groups hlen
    simp only [List.length_singleton] at hlen
    rw [List.splitOn_eq_singleton (hdigit h).1, ipListParseV6Groups,
      if_neg (fun hdot => (hdigit h).2 hdot.2.2),
      if_neg (by have := h.ne_nil; have := h.2; simp [*]; omega), h.1]
    rfl
  | @quad p a b c d htail h =>
    intro groups hlen
    simp only [List.length_cons, List.length_nil] at hlen
    obtain ⟨-, -, hc, hd⟩ := h.le
    rw [List.splitOn_eq_singleton (h.colon_not_mem), ipListParseV6Groups,
      if_pos ⟨rfl, htail, h.dot_mem⟩, if_neg (by omega),
      ipListParseV4_eq_some.mpr ⟨a, b, c, d, h, rfl⟩, Option.map_some, (v4_groups hc hd).1,
      (v4_groups hc hd).2]
  | @cons p s v gs h _ ih =>
    intro groups hlen
    simp only [List.length_cons] at hlen
    rw [List.splitOn_append_cons_self_of_not_mem (hdigit h).1, ipListParseV6Groups,
      if_neg (fun hlast => List.splitOn_ne_nil _ _ hlast.1),
      if_neg (by have := h.ne_nil; have := h.2; simp [*]; omega), h.1]
    simp only
    rw [ih (by simp only [List.length_append, List.length_singleton]; omega), List.append_assoc,
      List.singleton_append]

theorem isSide_of_ipListParseV6Part {s : Text} {tail : Bool} {gs : List ℕ}
    (h : ipListParseV6Part s tail = some gs) : IsSide tail s gs := by
  unfold ipListParseV6Part at h
  split at h
  · rename_i hs
    exact Or.inl ⟨hs, by simpa using h.symm⟩
  · obtain ⟨new, rfl, hnew⟩ := isGroups_of_ipListParseV6Groups (List.splitOn_ne_nil _ _) h
    rw [List.intercalate_splitOn] at hnew
    exact Or.inr hnew

theorem ipListParseV6Part_of_isSide {s : Text} {tail : Bool} {gs : List ℕ}
    (h : IsSide tail s gs) (hlen : gs.length ≤ 8) : ipListParseV6Part s tail = some gs := by
  unfold ipListParseV6Part
  rcases h with ⟨rfl, rfl⟩ | h
  · rfl
  · rw [if_neg h.ne_nil, ipListParseV6Groups_of_isGroups h (by simpa using hlen)]
    rfl

/-! ## The double colon -/

/-- Groups hold no double colon. -/
theorem cutDouble_isGroups {tail : Bool} {s : Text} {gs : List ℕ} (h : IsGroups tail s gs) :
    cutDouble ':' s = none := by
  induction h with
  | last h =>
    have := cutDouble_append (h.not_mem hexDigit_colon) []
    simpa [cutDouble] using this
  | quad _ h =>
    have := cutDouble_append (h.colon_not_mem) []
    simpa [cutDouble] using this
  | cons h hs ih =>
    have hcolon := hs.head_ne_colon []
    rw [List.append_nil] at hcolon
    rw [cutDouble_append (h.not_mem hexDigit_colon), cutDouble_cons (Or.inr hcolon), ih]
    rfl

/-- The first double colon is the one behind the groups. -/
theorem cutDouble_isGroups_gap {s : Text} {gs : List ℕ} (h : IsGroups false s gs) (r : Text) :
    cutDouble ':' (s ++ ':' :: ':' :: r) = some (s, r) := by
  induction h with
  | last h =>
    rw [cutDouble_append (h.not_mem hexDigit_colon)]
    simp [cutDouble]
  | quad htail => cases htail
  | cons h hs ih =>
    rw [List.append_assoc, cutDouble_append (h.not_mem hexDigit_colon), List.cons_append,
      cutDouble_cons (Or.inr (hs.head_ne_colon _)), ih]
    rfl

theorem cutDouble_isSide {tail : Bool} {s : Text} {gs : List ℕ} (h : IsSide tail s gs) :
    cutDouble ':' (':' :: s) = none := by
  rcases h with ⟨rfl, -⟩ | h
  · simp [cutDouble]
  · have hcolon := h.head_ne_colon []
    rw [List.append_nil] at hcolon
    rw [cutDouble_cons (Or.inr hcolon), cutDouble_isGroups h]
    rfl

/-- **The parser reads exactly the IPv6 texts.** -/
theorem ipListParseV6_eq_some {s : Text} {gs : List ℕ} :
    ipListParseV6 s = some gs ↔ IsIPv6 s gs := by
  constructor
  · intro h
    unfold ipListParseV6 at h
    split at h
    · obtain ⟨hpart, hlen⟩ := Option.filter_eq_some_iff.mp h
      simp only [decide_eq_true_eq] at hlen
      rcases isSide_of_ipListParseV6Part hpart with ⟨-, rfl⟩ | hs
      · simp at hlen
      · exact .full hs hlen
    · rename_i l r hcut
      split at h
      · cases h
      · split at h
        · rename_i head tail hhead htail
          split at h
          · cases h
          · rename_i hlen
            simp only [Option.some.injEq] at h
            rw [eq_append_of_cutDouble hcut, ← h]
            exact .gap (isSide_of_ipListParseV6Part hhead) (isSide_of_ipListParseV6Part htail)
              (by omega)
        · cases h
  · intro h
    unfold ipListParseV6
    cases h with
    | full h hlen =>
      rw [cutDouble_isGroups h]
      simp only
      rw [ipListParseV6Part_of_isSide (Or.inr h) (by omega)]
      simp [hlen]
    | @gap l r gl gr hl hr hlen =>
      have hcut : cutDouble ':' (l ++ ':' :: ':' :: r) = some (l, r) := by
        rcases hl with ⟨rfl, -⟩ | hl
        · rfl
        · exact cutDouble_isGroups_gap hl r
      rw [hcut]
      simp only
      rw [cutDouble_isSide hr, ipListParseV6Part_of_isSide hl (by omega),
        ipListParseV6Part_of_isSide hr (by omega)]
      simp only [Option.isSome_none, Bool.false_eq_true, if_false]
      rw [if_neg (by omega)]

end Throned.Scanner
