import Throned.Library.NetipParse

/-!
# Well-formed address texts

Which texts `Netip.parseAddr` reads, and as what: a quad of octets, eight groups, or
groups around a `::`.  The predicates describe a text by its pieces between the dots and
colons, so that another parser or a writer can be compared with `netip` piece by piece.
-/

set_option autoImplicit false

namespace Throned.Library.Netip

/-- A decimal octet of at most three digits without a leading zero. -/
def IsOctet (p : Text) (v : ℕ) : Prop :=
  parseDecimal p = some v ∧ p.length ≤ 3 ∧ v ≤ 255 ∧ (1 < p.length → p.head? ≠ some '0')

/-- A dotted quad. -/
def IsQuad (s : Text) (a b c d : ℕ) : Prop :=
  ∃ p q r t, IsOctet p a ∧ IsOctet q b ∧ IsOctet r c ∧ IsOctet t d ∧
    s = p ++ '.' :: (q ++ '.' :: (r ++ '.' :: t))

/-- A group of one to four hexadecimal digits. -/
def IsGroup (p : Text) (v : ℕ) : Prop := parseHex p = some v ∧ p.length ≤ 4

/-- Groups between single colons; the last one may be a dotted quad when `tail` is set. -/
inductive IsGroups (tail : Bool) : Text → List ℕ → Prop where
  | last {p : Text} {v : ℕ} (h : IsGroup p v) : IsGroups tail p [v]
  | quad {p : Text} {a b c d : ℕ} (htail : tail = true) (h : IsQuad p a b c d) :
      IsGroups tail p [a * 256 + b, c * 256 + d]
  | cons {p s : Text} {v : ℕ} {gs : List ℕ} (h : IsGroup p v) (hs : IsGroups tail s gs) :
      IsGroups tail (p ++ ':' :: s) (v :: gs)

/-- Groups or nothing: a side of a `::`. -/
def IsSide (tail : Bool) (s : Text) (gs : List ℕ) : Prop :=
  s = [] ∧ gs = [] ∨ IsGroups tail s gs

/-- The text of an IPv6 address without a zone. -/
inductive IsIPv6 : Text → List ℕ → Prop where
  | full {s : Text} {gs : List ℕ} (h : IsGroups true s gs) (hlen : gs.length = 8) : IsIPv6 s gs
  | gap {l r : Text} {gl gr : List ℕ} (hl : IsSide false l gl) (hr : IsSide true r gr)
      (hlen : gl.length + gr.length ≤ 7) :
      IsIPv6 (l ++ ':' :: ':' :: r)
        (gl ++ List.replicate (8 - gl.length - gr.length) 0 ++ gr)

/-! ## Digits -/

theorem decimalDigit_le {c : Char} {d : ℕ} (h : decimalDigit c = some d) : d ≤ 9 := by
  unfold decimalDigit at h
  split at h
  · rename_i hc
    have hc' : c.toNat ≤ '9'.toNat := hc.2
    have h9 : '9'.toNat = 57 := rfl
    have h0 : '0'.toNat = 48 := rfl
    simp only [Option.some.injEq] at h
    omega
  · cases h

theorem decimalDigit_eq_zero {c : Char} (h : decimalDigit c = some 0) : c = '0' := by
  unfold decimalDigit at h
  split at h
  · rename_i hc
    have hlow : '0'.toNat ≤ c.toNat := hc.1
    simp only [Option.some.injEq] at h
    exact Char.toNat_inj.mp (by omega)
  · cases h

theorem hexDigit_of_decimalDigit {c : Char} {d : ℕ} (h : decimalDigit c = some d) :
    hexDigit c = some d := by
  unfold decimalDigit at h
  unfold hexDigit
  split at h
  · rename_i hc
    rw [if_pos hc, h]
  · cases h

theorem hexDigit_bounds {c : Char} {d : ℕ} (h : hexDigit c = some d) :
    d ≤ 15 ∧ 48 ≤ c.toNat ∧ c.toNat ≤ 102 := by
  have h0 : '0'.toNat = 48 := rfl
  have h9 : '9'.toNat = 57 := rfl
  have ha : 'a'.toNat = 97 := rfl
  have hf : 'f'.toNat = 102 := rfl
  have hA : 'A'.toNat = 65 := rfl
  have hF : 'F'.toNat = 70 := rfl
  unfold hexDigit at h
  split at h
  · rename_i hc
    have hlow : '0'.toNat ≤ c.toNat := hc.1
    have hhigh : c.toNat ≤ '9'.toNat := hc.2
    simp only [Option.some.injEq] at h
    omega
  · split at h
    · rename_i hc
      have hlow : 'a'.toNat ≤ c.toNat := hc.1
      have hhigh : c.toNat ≤ 'f'.toNat := hc.2
      simp only [Option.some.injEq] at h
      omega
    · split at h
      · rename_i hc
        have hlow : 'A'.toNat ≤ c.toNat := hc.1
        have hhigh : c.toNat ≤ 'F'.toNat := hc.2
        simp only [Option.some.injEq] at h
        omega
      · cases h

/-! ## Dotted quads -/

/-- The loop over the digits of an octet that cannot fail any more. -/
theorem parseIPv4Loop_digits {s : Text} (t : Text) (fields : List ℕ) :
    ∀ {prev : Option Char} {val digLen v : ℕ}, readDigits 10 decimalDigit val s = some v →
      v ≤ 255 → (val ≠ 0 ∨ s = []) →
      ∃ prev', (s = [] → prev' = prev) ∧ (s ≠ [] → prev' ≠ none ∧ prev' ≠ some '.') ∧
        parseIPv4Loop prev val digLen fields (s ++ t) =
          parseIPv4Loop prev' v (digLen + s.length) fields t := by
  induction s with
  | nil =>
    intro prev val digLen v h _ _
    simp only [readDigits, Option.some.injEq] at h
    exact ⟨prev, fun _ => rfl, fun hne => absurd rfl hne, by simp [h]⟩
  | cons c s ih =>
    intro prev val digLen v h hv hval
    simp only [readDigits] at h
    cases hc : decimalDigit c with
    | none => simp [hc] at h
    | some d =>
      rw [hc] at h
      have hval' : val ≠ 0 := hval.resolve_right (by simp)
      have hle : val * 10 + d ≤ v := acc_le_of_readDigits (by omega) h
      have hdot : c ≠ '.' := by
        rintro rfl
        simp [decimalDigit] at hc
      obtain ⟨prev', hnil, hne, heq⟩ := @ih (some c) _ (digLen + 1) _ h hv
        (Or.inl (by omega))
      refine ⟨prev', fun h => absurd h (by simp), fun _ => ?_, ?_⟩
      · cases s with
        | nil => simp [hnil rfl, hdot]
        | cons c' s => exact hne (by simp)
      · simp only [List.cons_append, parseIPv4Loop, hc]
        rw [if_neg (fun h => hval' h.2), if_neg (by omega), heq, List.length_cons]
        congr 1
        omega

/-- The loop over an octet. -/
theorem parseIPv4Loop_octet {p : Text} {v : ℕ} (h : IsOctet p v) (prev : Option Char)
    (fields : List ℕ) (t : Text) :
    ∃ prev', prev' ≠ none ∧ prev' ≠ some '.' ∧
      parseIPv4Loop prev 0 0 fields (p ++ t) = parseIPv4Loop prev' v p.length fields t := by
  obtain ⟨hread, -, hv, hzero⟩ := h
  cases p with
  | nil => simp [parseDecimal] at hread
  | cons c p =>
    simp only [parseDecimal, reduceCtorEq, if_false, readDigits] at hread
    cases hc : decimalDigit c with
    | none => simp [hc] at hread
    | some d =>
      rw [hc] at hread
      simp only [Nat.zero_mul, Nat.zero_add] at hread
      have hd := decimalDigit_le hc
      have hdot : c ≠ '.' := by
        rintro rfl
        simp [decimalDigit] at hc
      have hfirst : d ≠ 0 ∨ p = [] := by
        by_cases hp : p = []
        · exact Or.inr hp
        · left
          rintro rfl
          exact hzero (by simp [List.length_pos_iff.mpr hp]) (by simp [decimalDigit_eq_zero hc])
      obtain ⟨prev', hnil, hne, heq⟩ :=
        @parseIPv4Loop_digits _ t fields (some c) _ 1 _ hread hv hfirst
      have hprev : prev' ≠ none ∧ prev' ≠ some '.' := by
        cases p with
        | nil => simp [hnil rfl, hdot]
        | cons c' p => exact hne (by simp)
      refine ⟨prev', hprev.1, hprev.2, ?_⟩
      simp only [List.cons_append, parseIPv4Loop, hc]
      rw [if_neg (by omega), if_neg (by omega), Nat.zero_mul, Nat.zero_add, heq, List.length_cons,
        Nat.add_comm 1]

/-- The loop over an octet and the dot behind it. -/
theorem parseIPv4Loop_octet_dot {p : Text} {v : ℕ} (h : IsOctet p v) (prev : Option Char)
    {fields : List ℕ} (hfields : fields.length < 3) {t : Text} (ht : t ≠ []) :
    parseIPv4Loop prev 0 0 fields (p ++ '.' :: t) =
      parseIPv4Loop (some '.') 0 0 (fields ++ [v]) t := by
  obtain ⟨prev', hnone, hdot, heq⟩ := parseIPv4Loop_octet h prev fields ('.' :: t)
  rw [heq]
  have hdigit : decimalDigit '.' = none := by decide
  simp [parseIPv4Loop, hdigit, hnone, hdot, ht, Nat.ne_of_lt hfields]

theorem IsOctet.ne_nil {p : Text} {v : ℕ} (h : IsOctet p v) : p ≠ [] := by
  rintro rfl
  simp [IsOctet, parseDecimal] at h

theorem parseIPv4Fields_quad {s : Text} {a b c d : ℕ} (h : IsQuad s a b c d) :
    parseIPv4Fields s = some [a, b, c, d] := by
  obtain ⟨p, q, r, t, hp, hq, hr, ht, rfl⟩ := h
  obtain ⟨prev, -, -, heq⟩ := parseIPv4Loop_octet ht (some '.') [a, b, c] []
  unfold parseIPv4Fields
  rw [parseIPv4Loop_octet_dot hp none (by simp) (by simp),
    parseIPv4Loop_octet_dot hq _ (by simp) (by simp),
    parseIPv4Loop_octet_dot hr _ (by simp) ht.ne_nil]
  rw [List.append_nil] at heq
  simp only [List.nil_append, List.cons_append] at heq ⊢
  rw [heq]
  simp [parseIPv4Loop]

/-! ## Groups -/

/-- A group is read up to what follows it. -/
theorem readGroup_digits {p : Text} {t : Text} (ht : ∀ c ∈ t.head?, hexDigit c = none) :
    ∀ {off acc v : ℕ}, readDigits 16 hexDigit acc p = some v → off + p.length ≤ 4 →
      acc < 16 ^ off → readGroup off acc (p ++ t) = some (off + p.length, v, t) := by
  induction p with
  | nil =>
    intro off acc v h _ _
    simp only [readDigits, Option.some.injEq] at h
    subst h
    cases t with
    | nil => simp [readGroup]
    | cons c t => simp [readGroup, ht c (by simp)]
  | cons c p ih =>
    intro off acc v h hlen hacc
    simp only [readDigits] at h
    cases hc : hexDigit c with
    | none => simp [hc] at h
    | some d =>
      rw [hc] at h
      have hd := (hexDigit_bounds hc).1
      simp only [List.length_cons] at hlen
      have hnext : acc * 16 + d < 16 ^ (off + 1) := by
        rw [Nat.pow_succ]
        omega
      have hmax : 16 ^ (off + 1) ≤ 16 ^ 4 := Nat.pow_le_pow_right (by omega) (by omega)
      simp only [List.cons_append, readGroup, hc]
      rw [if_neg (by omega), if_neg (by omega), ih h (by omega) hnext, List.length_cons]
      congr 2
      omega

theorem readGroup_group {p t : Text} {v : ℕ} (h : IsGroup p v)
    (ht : ∀ c ∈ t.head?, hexDigit c = none) :
    readGroup 0 0 (p ++ t) = some (p.length, v, t) ∧ p.length ≠ 0 := by
  obtain ⟨hread, hlen⟩ := h
  cases p with
  | nil => simp [parseHex] at hread
  | cons c p =>
    simp only [parseHex, reduceCtorEq, if_false] at hread
    refine ⟨?_, by simp⟩
    rw [readGroup_digits ht hread (by omega) (by omega), Nat.zero_add]

theorem readDigits_hex_of_decimal {s : Text} :
    ∀ {acc v : ℕ} (acc' : ℕ), readDigits 10 decimalDigit acc s = some v →
      ∃ w, readDigits 16 hexDigit acc' s = some w := by
  induction s with
  | nil => exact fun acc' _ => ⟨acc', rfl⟩
  | cons c s ih =>
    intro acc v acc' h
    simp only [readDigits] at h ⊢
    cases hc : decimalDigit c with
    | none => simp [hc] at h
    | some d =>
      rw [hc] at h
      rw [hexDigit_of_decimalDigit hc]
      exact ih _ h

/-- A dotted quad starts like a group. -/
theorem readGroup_quad {s : Text} {a b c d : ℕ} (h : IsQuad s a b c d) :
    ∃ off acc rest, readGroup 0 0 s = some (off, acc, '.' :: rest) ∧ off ≠ 0 := by
  obtain ⟨p, q, r, t, hp, -, -, -, rfl⟩ := h
  obtain ⟨hread, hlen, -⟩ := id hp
  simp only [parseDecimal, hp.ne_nil, if_false] at hread
  obtain ⟨w, hw⟩ := readDigits_hex_of_decimal 0 hread
  have hdot : ∀ c ∈ ('.' :: (q ++ '.' :: (r ++ '.' :: t))).head?, hexDigit c = none := by
    intro c hc
    simp only [List.head?_cons, Option.mem_def, Option.some.injEq] at hc
    subst hc
    decide
  refine ⟨p.length, w, q ++ '.' :: (r ++ '.' :: t), ?_,
    fun h => hp.ne_nil (List.length_eq_zero_iff.mp h)⟩
  rw [readGroup_digits hdot hw (by omega) (by omega), Nat.zero_add]

theorem hexDigit_colon : hexDigit ':' = none := by decide

theorem IsGroups.ne_nil {tail : Bool} {s : Text} {gs : List ℕ} (h : IsGroups tail s gs) :
    s ≠ [] := by
  cases h with
  | last h =>
    rintro rfl
    simp [IsGroup, parseHex] at h
  | quad _ h =>
    rintro rfl
    obtain ⟨p, q, r, t, -, -, -, -, heq⟩ := h
    simp at heq
  | cons => simp

/-- Groups do not start with a colon. -/
theorem IsGroups.head_ne_colon {tail : Bool} {s : Text} {gs : List ℕ} (h : IsGroups tail s gs)
    (t : Text) : (s ++ t).head? ≠ some ':' := by
  have hgroup : ∀ {p : Text} {v : ℕ} (u : Text), IsGroup p v → (p ++ u).head? ≠ some ':' := by
    intro p v u hp
    cases p with
    | nil => simp [IsGroup, parseHex] at hp
    | cons c p =>
      rintro hc
      simp only [List.cons_append, List.head?_cons, Option.some.injEq] at hc
      subst hc
      simp [IsGroup, parseHex, readDigits, hexDigit_colon] at hp
  cases h with
  | last h => exact hgroup t h
  | quad _ h =>
    obtain ⟨p, q, r, t', hp, -, -, -, rfl⟩ := h
    obtain ⟨hread, -⟩ := id hp
    cases p with
    | nil => exact absurd rfl hp.ne_nil
    | cons c p =>
      rintro hc
      simp only [List.cons_append, List.head?_cons, Option.some.injEq] at hc
      subst hc
      simp [parseDecimal, readDigits, decimalDigit] at hread
  | cons h _ =>
    rw [List.append_assoc]
    exact hgroup _ h

/-- The group loop reads groups to their end.  A dotted tail needs its two places, and
without a `::` the groups must be eight. -/
theorem parseIPv6Loop_groups {tail : Bool} {s : Text} {gs : List ℕ} (h : IsGroups tail s gs) :
    ∀ {room : ℕ} {groups : List ℕ} {ellipsis : Option ℕ}, room + groups.length = 8 →
      groups.length + gs.length ≤ 8 → (ellipsis = none → groups.length + gs.length = 8) →
      parseIPv6Loop room groups ellipsis s = some (groups ++ gs, ellipsis, []) := by
  induction h with
  | @last p v h =>
    intro room groups ellipsis hroom hlen _
    simp only [List.length_singleton] at hlen
    obtain ⟨room, rfl⟩ : ∃ n, room = n + 1 := ⟨room - 1, by omega⟩
    obtain ⟨hread, hoff⟩ := readGroup_group h (t := []) (by simp)
    rw [List.append_nil] at hread
    simp [parseIPv6Loop, hread, hoff]
  | @quad p a b c d _ h =>
    intro room groups ellipsis hroom hlen hfull
    simp only [List.length_cons, List.length_nil] at hlen hfull
    obtain ⟨room, rfl⟩ : ∃ n, room = n + 1 := ⟨room - 1, by omega⟩
    obtain ⟨off, acc, rest, hread, hoff⟩ := readGroup_quad h
    have hsix : ¬(ellipsis.isNone ∧ groups.length ≠ 6) := by
      rintro ⟨hnone, hne⟩
      have := hfull (Option.isNone_iff_eq_none.mp hnone)
      omega
    simp only [parseIPv6Loop, hread, hoff, if_false]
    rw [if_neg hsix, if_neg (by omega), parseIPv4Fields_quad h]
  | @cons p s v gs h hs ih =>
    intro room groups ellipsis hroom hlen hfull
    simp only [List.length_cons] at hlen hfull
    obtain ⟨room, rfl⟩ : ∃ n, room = n + 1 := ⟨room - 1, by omega⟩
    obtain ⟨hread, hoff⟩ := readGroup_group h (t := ':' :: s) (by simp [hexDigit_colon])
    have hcolon := hs.head_ne_colon []
    rw [List.append_nil] at hcolon
    have hstep : parseIPv6Loop (room + 1) groups ellipsis (p ++ ':' :: s) =
        parseIPv6Loop room (groups ++ [v]) ellipsis s := by
      simp only [parseIPv6Loop, hread, hoff, if_false]
      cases s with
      | nil => exact absurd rfl hs.ne_nil
      | cons c s =>
        simp only [List.head?_cons, ne_eq, Option.some.injEq] at hcolon
        split <;> simp_all
    rw [hstep, ih (by simp only [List.length_append, List.length_singleton]; omega)
      (by simp only [List.length_append, List.length_singleton]; omega)
      (by simp only [List.length_append, List.length_singleton]; intro h; have := hfull h; omega),
      List.append_assoc, List.singleton_append]

/-- The group loop reads groups up to the `::` behind them. -/
theorem parseIPv6Loop_gap {s : Text} {gs : List ℕ} (h : IsGroups false s gs) (r : Text) :
    ∀ {room : ℕ} {groups : List ℕ}, room + groups.length = 8 → groups.length + gs.length ≤ 7 →
      parseIPv6Loop room groups none (s ++ ':' :: ':' :: r) =
        if r = [] then some (groups ++ gs, some (groups.length + gs.length), [])
        else parseIPv6Loop (room - gs.length) (groups ++ gs)
          (some (groups.length + gs.length)) r := by
  induction h with
  | @last p v h =>
    intro room groups hroom hlen
    simp only [List.length_singleton] at hlen ⊢
    obtain ⟨room, rfl⟩ : ∃ n, room = n + 1 := ⟨room - 1, by omega⟩
    obtain ⟨hread, hoff⟩ := readGroup_group h (t := ':' :: ':' :: r) (by simp [hexDigit_colon])
    simp [parseIPv6Loop, hread, hoff]
  | quad htail _ => cases htail
  | @cons p s v gs h hs ih =>
    intro room groups hroom hlen
    simp only [List.length_cons] at hlen ⊢
    obtain ⟨room, rfl⟩ : ∃ n, room = n + 1 := ⟨room - 1, by omega⟩
    obtain ⟨hread, hoff⟩ := readGroup_group h (t := ':' :: (s ++ ':' :: ':' :: r))
      (by simp [hexDigit_colon])
    have hcolon := hs.head_ne_colon (':' :: ':' :: r)
    have hstep : parseIPv6Loop (room + 1) groups none (p ++ ':' :: (s ++ ':' :: ':' :: r)) =
        parseIPv6Loop room (groups ++ [v]) none (s ++ ':' :: ':' :: r) := by
      simp only [parseIPv6Loop, hread, hoff, if_false]
      cases s with
      | nil => exact absurd rfl hs.ne_nil
      | cons c s =>
        simp only [List.cons_append, List.head?_cons, ne_eq, Option.some.injEq] at hcolon ⊢
        split <;> simp_all
    have hsum : groups.length + 1 + gs.length = groups.length + (gs.length + 1) := by omega
    rw [List.append_assoc, List.cons_append, hstep,
      ih (by simp only [List.length_append, List.length_singleton]; omega)
        (by simp only [List.length_append, List.length_singleton]; omega)]
    simp only [List.length_append, List.length_singleton, List.append_assoc,
      List.singleton_append, Nat.add_sub_add_right, hsum]

/-- Groups that fill eight places around the `::`. -/
theorem expandGroups_gap {gl gr : List ℕ} (hlen : gl.length + gr.length ≤ 7) :
    expandGroups (gl ++ gr, some gl.length, []) =
      some (gl ++ List.replicate (8 - gl.length - gr.length) 0 ++ gr) := by
  have hlt : gl.length + gr.length < 8 := by omega
  simp [expandGroups, hlt, Nat.sub_sub]

theorem parseIPv6Groups_gap {l r : Text} {gl gr : List ℕ} (hl : IsSide false l gl)
    (hr : IsSide true r gr) (hlen : gl.length + gr.length ≤ 7) :
    parseIPv6Groups (l ++ ':' :: ':' :: r) =
      some (gl ++ List.replicate (8 - gl.length - gr.length) 0 ++ gr) := by
  -- the text after the `::`, once the groups before it have been read
  have hright : r ≠ [] → parseIPv6Loop (8 - gl.length) gl (some gl.length) r =
      some (gl ++ gr, some gl.length, []) := by
    intro hne
    rcases hr with ⟨rfl, -⟩ | hr
    · exact absurd rfl hne
    · exact parseIPv6Loop_groups hr (by omega) (by omega) (by simp)
  have hempty : r = [] → gr = [] := by
    rintro rfl
    rcases hr with ⟨-, h⟩ | hr
    · exact h
    · exact absurd rfl hr.ne_nil
  rcases hl with ⟨rfl, rfl⟩ | hl
  · cases r with
    | nil => simp [parseIPv6Groups, hempty rfl]
    | cons c r =>
      have heq : parseIPv6Groups ([] ++ ':' :: ':' :: c :: r) =
          (parseIPv6Loop 8 [] (some 0) (c :: r)).bind expandGroups := rfl
      rw [heq, show parseIPv6Loop 8 [] (some 0) (c :: r) = _ from hright (by simp)]
      exact expandGroups_gap hlen
  · have hcolon := hl.head_ne_colon (':' :: ':' :: r)
    have heq : parseIPv6Groups (l ++ ':' :: ':' :: r) =
        (parseIPv6Loop 8 [] none (l ++ ':' :: ':' :: r)).bind expandGroups := by
      cases l with
      | nil => exact absurd rfl hl.ne_nil
      | cons c l =>
        simp only [List.cons_append, List.head?_cons, ne_eq, Option.some.injEq] at hcolon ⊢
        unfold parseIPv6Groups
        split <;> simp_all
    rw [heq, parseIPv6Loop_gap hl r rfl (by simp; omega)]
    simp only [List.nil_append, List.length_nil, Nat.zero_add]
    split
    · rename_i h
      have := expandGroups_gap hlen
      rw [hempty h, List.append_nil] at this
      rw [hempty h]
      exact this
    · rename_i h
      rw [hright h]
      exact expandGroups_gap hlen

/-- **`netip` reads a well-formed IPv6 text as its groups.** -/
theorem parseIPv6Groups_of_isIPv6 {s : Text} {gs : List ℕ} (h : IsIPv6 s gs) :
    parseIPv6Groups s = some gs := by
  cases h with
  | full h hlen =>
    have hcolon := h.head_ne_colon []
    rw [List.append_nil] at hcolon
    have hloop := @parseIPv6Loop_groups _ _ _ h 8 [] none rfl (by simp [hlen]) (by simp [hlen])
    cases s with
    | nil => exact absurd rfl h.ne_nil
    | cons c s =>
      simp only [List.head?_cons, ne_eq, Option.some.injEq] at hcolon
      have heq : parseIPv6Groups (c :: s) = (parseIPv6Loop 8 [] none (c :: s)).bind expandGroups := by
        unfold parseIPv6Groups
        split <;> simp_all
      rw [heq, hloop]
      simp [expandGroups, hlen]
  | @gap l r gl gr hl hr hlen =>
    exact parseIPv6Groups_gap hl hr hlen

/-! ## Addresses -/

/-- The characters of an address text. -/
def IsAddrChar (c : Char) : Prop := (hexDigit c).isSome ∨ c = ':' ∨ c = '.'

instance (c : Char) : Decidable (IsAddrChar c) := inferInstanceAs (Decidable (_ ∨ _))

theorem IsGroup.hexDigit_of_mem {p : Text} {v : ℕ} (h : IsGroup p v) :
    ∀ c ∈ p, (hexDigit c).isSome := by
  obtain ⟨hread, -⟩ := h
  cases p with
  | nil => simp
  | cons c p =>
    simp only [parseHex, reduceCtorEq, if_false] at hread
    exact digit_of_readDigits hread

theorem IsOctet.decimalDigit_of_mem {p : Text} {v : ℕ} (h : IsOctet p v) :
    ∀ c ∈ p, (decimalDigit c).isSome := by
  have hread := h.1
  simp only [parseDecimal, h.ne_nil, if_false] at hread
  exact digit_of_readDigits hread

theorem IsOctet.dot_not_mem {p : Text} {v : ℕ} (h : IsOctet p v) : '.' ∉ p := fun hdot => by
  have := h.decimalDigit_of_mem _ hdot
  revert this
  decide

theorem IsGroup.not_mem {p : Text} {v : ℕ} (h : IsGroup p v) {c : Char}
    (hc : hexDigit c = none) : c ∉ p := fun hmem => by
  have := h.hexDigit_of_mem c hmem
  rw [hc] at this
  cases this

theorem IsGroup.ne_nil {p : Text} {v : ℕ} (h : IsGroup p v) : p ≠ [] := by
  rintro rfl
  simp [IsGroup, parseHex] at h

theorem hexDigit_isSome_of_decimalDigit {c : Char} (h : (decimalDigit c).isSome) :
    (hexDigit c).isSome := by
  obtain ⟨d, hd⟩ := Option.isSome_iff_exists.mp h
  rw [hexDigit_of_decimalDigit hd, Option.isSome_some]

theorem IsQuad.addrChar {s : Text} {a b c d : ℕ} (h : IsQuad s a b c d) :
    ∀ x ∈ s, (decimalDigit x).isSome ∨ x = '.' := by
  obtain ⟨p, q, r, t, hp, hq, hr, ht, rfl⟩ := h
  intro x hx
  simp only [List.mem_append, List.mem_cons] at hx
  rcases hx with hx | rfl | hx | rfl | hx | rfl | hx
  · exact Or.inl (hp.decimalDigit_of_mem x hx)
  · exact Or.inr rfl
  · exact Or.inl (hq.decimalDigit_of_mem x hx)
  · exact Or.inr rfl
  · exact Or.inl (hr.decimalDigit_of_mem x hx)
  · exact Or.inr rfl
  · exact Or.inl (ht.decimalDigit_of_mem x hx)

theorem IsQuad.colon_not_mem {s : Text} {a b c d : ℕ} (h : IsQuad s a b c d) : ':' ∉ s :=
  fun hmem => by
    rcases h.addrChar _ hmem with hd | hd
    · revert hd
      decide
    · cases hd

theorem IsQuad.dot_mem {s : Text} {a b c d : ℕ} (h : IsQuad s a b c d) : '.' ∈ s := by
  obtain ⟨p, q, r, t, -, -, -, -, rfl⟩ := h
  simp

theorem IsQuad.le {s : Text} {a b c d : ℕ} (h : IsQuad s a b c d) :
    a ≤ 255 ∧ b ≤ 255 ∧ c ≤ 255 ∧ d ≤ 255 := by
  obtain ⟨p, q, r, t, hp, hq, hr, ht, -⟩ := h
  exact ⟨hp.2.2.1, hq.2.2.1, hr.2.2.1, ht.2.2.1⟩

theorem IsGroups.addrChar {tail : Bool} {s : Text} {gs : List ℕ} (h : IsGroups tail s gs) :
    ∀ x ∈ s, IsAddrChar x := by
  induction h with
  | last h => exact fun x hx => Or.inl (h.hexDigit_of_mem x hx)
  | quad _ h =>
    intro x hx
    rcases h.addrChar x hx with hd | hdot
    · exact Or.inl (hexDigit_isSome_of_decimalDigit hd)
    · exact Or.inr (Or.inr hdot)
  | cons h _ ih =>
    intro x hx
    simp only [List.mem_append, List.mem_cons] at hx
    rcases hx with hx | hx | hx
    · exact Or.inl (h.hexDigit_of_mem x hx)
    · exact Or.inr (Or.inl hx)
    · exact ih x hx

theorem IsSide.addrChar {tail : Bool} {s : Text} {gs : List ℕ} (h : IsSide tail s gs) :
    ∀ x ∈ s, IsAddrChar x := by
  rcases h with ⟨rfl, -⟩ | h
  · simp
  · exact h.addrChar

theorem IsIPv6.addrChar {s : Text} {gs : List ℕ} (h : IsIPv6 s gs) : ∀ x ∈ s, IsAddrChar x := by
  cases h with
  | full h _ => exact h.addrChar
  | gap hl hr _ =>
    intro x hx
    simp only [List.mem_append, List.mem_cons] at hx
    rcases hx with hx | hx | hx | hx
    · exact hl.addrChar x hx
    · exact Or.inr (Or.inl hx)
    · exact Or.inr (Or.inl hx)
    · exact hr.addrChar x hx

theorem IsIPv6.length {s : Text} {gs : List ℕ} (h : IsIPv6 s gs) : gs.length = 8 := by
  cases h with
  | full _ hlen => exact hlen
  | gap _ _ hlen =>
    simp only [List.length_append, List.length_replicate]
    omega

/-- An IPv6 text is hexadecimal digits up to its first colon. -/
theorem IsIPv6.eq_append {s : Text} {gs : List ℕ} (h : IsIPv6 s gs) :
    ∃ p t, s = p ++ ':' :: t ∧ ∀ c ∈ p, (hexDigit c).isSome := by
  cases h with
  | full h hlen =>
    cases h with
    | last => simp at hlen
    | quad => simp at hlen
    | cons h _ => exact ⟨_, _, rfl, h.hexDigit_of_mem⟩
  | gap hl _ _ =>
    rcases hl with ⟨rfl, -⟩ | hl
    · exact ⟨[], _, rfl, by simp⟩
    · cases hl with
      | last h => exact ⟨_, _, rfl, h.hexDigit_of_mem⟩
      | quad htail => cases htail
      | cons h _ =>
        rw [List.append_assoc]
        exact ⟨_, _, rfl, h.hexDigit_of_mem⟩

/-- Digits before a character that decides the family do not decide it. -/
theorem find?_family {p t : Text} {c : Char} (hp : ∀ x ∈ p, (hexDigit x).isSome)
    (hc : c = '.' ∨ c = ':') :
    (p ++ c :: t).find? (fun c => c = '.' || c = ':' || c = '%') = some c := by
  rw [List.find?_append]
  have hnone : p.find? (fun c => c = '.' || c = ':' || c = '%') = none := by
    rw [List.find?_eq_none]
    intro x hx
    have hhex := hp x hx
    simp only [Bool.or_eq_true, decide_eq_true_eq]
    rintro ((rfl | rfl) | rfl) <;> revert hhex <;> decide
  rw [hnone, Option.none_or, List.find?_cons]
  rcases hc with rfl | rfl <;> rfl

/-- **`netip.ParseAddr` on a dotted quad.** -/
theorem parseAddr_of_isQuad {s : Text} {a b c d : ℕ} (h : IsQuad s a b c d) :
    parseAddr s = some (.v4 (ofOctets [a, b, c, d]), []) := by
  have hfields := parseIPv4Fields_quad h
  obtain ⟨p, q, r, t, hp, -, -, -, rfl⟩ := h
  unfold parseAddr
  rw [find?_family (fun x hx => hexDigit_isSome_of_decimalDigit (hp.decimalDigit_of_mem x hx))
    (Or.inl rfl)]
  simp [parseIPv4, hfields]

theorem not_mem_percent {s : Text} (h : ∀ x ∈ s, IsAddrChar x) : '%' ∉ s := by
  intro hx
  rcases h _ hx with hhex | hcolon | hdot
  · revert hhex
    decide
  · cases hcolon
  · cases hdot

/-- **`netip.ParseAddr` on an IPv6 text without a zone.** -/
theorem parseAddr_of_isIPv6 {s : Text} {gs : List ℕ} (h : IsIPv6 s gs) :
    parseAddr s = some (addrOfGroups gs, []) := by
  have hzone := not_mem_percent h.addrChar
  have htake : s.takeWhile (· ≠ '%') = s := List.takeWhile_eq_self_iff.mpr fun x hx => by
    simpa using ne_of_mem_of_not_mem hx hzone
  have hdrop : s.dropWhile (· ≠ '%') = [] := List.dropWhile_eq_nil_iff.mpr fun x hx => by
    simpa using ne_of_mem_of_not_mem hx hzone
  have hgroups := parseIPv6Groups_of_isIPv6 h
  obtain ⟨p, t, hs, hp⟩ := h.eq_append
  unfold parseAddr
  rw [hs, find?_family hp (Or.inr rfl), ← hs]
  simp only [parseIPv6, htake, hdrop, hgroups, Option.map_some]

/-! ## Prefixes -/

theorem parsePrefix_eq_none {s : Text} (h : '/' ∉ s) : parsePrefix s = none := by
  have hdrop : s.reverse.dropWhile (· ≠ '/') = [] := List.dropWhile_eq_nil_iff.mpr fun x hx => by
    simpa using ne_of_mem_of_not_mem (List.mem_reverse.mp hx) h
  unfold parsePrefix
  rw [hdrop]
  rfl

/-- **`netip.ParsePrefix` on an address, a slash and a length.** -/
theorem parsePrefix_append {l d : Text} {addr : Addr} {bits : ℕ} (hd : '/' ∉ d)
    (hl : parseAddr l = some (addr, [])) (hbits : parseBits addr.bitLen d = some bits)
    (h : bits ≤ addr.bitLen) : parsePrefix (l ++ '/' :: d) = some ⟨addr, bits, h⟩ := by
  have hbody : ((l ++ '/' :: d).reverse.dropWhile (· ≠ '/')).reverse = l ++ ['/'] := by
    rw [List.reverse_append, List.reverse_cons, List.append_assoc,
      List.dropWhile_append_of_pos fun x hx => by
        simpa using ne_of_mem_of_not_mem (List.mem_reverse.mp hx) hd]
    simp
  have hdrop : (l ++ '/' :: d).drop (l ++ ['/']).length = d := by simp
  unfold parsePrefix
  rw [hbody]
  split
  · rename_i hnil
    simp at hnil
  · rename_i hbody'
    rw [List.dropLast_concat, hl, hdrop]
    simp only [hbits, dif_pos h]

theorem parseBits_decimal {bitLen n : ℕ} (h : n ≤ bitLen) : parseBits bitLen (decimal n) = some n := by
  unfold parseBits
  rw [if_neg (fun hzero => head_decimal_of_length hzero.1 hzero.2), parseDecimal_decimal]
  simp [Option.filter, h]

end Throned.Library.Netip
