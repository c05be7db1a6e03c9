import Throned.Analysis.ListEntries

/-!
# Writing a list and reading it back

A line of `FormatEntry` is read as one address token, or as a prefix and its port, so the
text of a list of canonical entries reads back as the same list.
-/

set_option autoImplicit false

namespace Throned.Scanner

open Throned.Library Throned.Library.Netip

/-! ## The characters of a line -/

/-- The characters `FormatEntry` writes. -/
def IsLineChar (c : Char) : Prop := IsAddrChar c ∨ c = '/' ∨ c = '[' ∨ c = ']' ∨ c = ' '

instance (c : Char) : Decidable (IsLineChar c) := inferInstanceAs (Decidable (_ ∨ _))

theorem portText_of_nonneg {port : Int} (h : 0 ≤ port) : portText port = decimal port.toNat := by
  rw [portText, if_neg (by omega), show port.natAbs = port.toNat by omega]

theorem ipListParsePort_portText {port : Int} (h : 0 ≤ port) (hle : port ≤ 65535) :
    ipListParsePort (portText port) = some port.toNat := by
  rw [portText_of_nonneg h, ipListParsePort,
    ipListParseDecimal_eq_some.mpr ⟨parseDecimal_decimal _, (length_decimal_le (by omega)).mpr (by omega)⟩]
  simp [Option.filter]
  omega

theorem addrChar_portText {port : Int} (h : 0 ≤ port) : ∀ x ∈ portText port, IsAddrChar x := by
  rw [portText_of_nonneg h]
  exact addrChar_decimal _

theorem colon_not_mem_decimal (n : ℕ) : ':' ∉ decimal n := fun h => by
  have := decimalDigit_of_mem_decimal h
  revert this
  decide

theorem dot_not_mem_decimal (n : ℕ) : '.' ∉ decimal n := fun h => by
  have := decimalDigit_of_mem_decimal h
  revert this
  decide

/-- A port is not an address. -/
theorem ipListParseAddressToken_portText {port : Int} (h : 0 ≤ port) :
    ipListParseAddressToken (portText port) = none := by
  have hchar := addrChar_portText h
  have hnot : ∀ {c : Char}, ¬IsAddrChar c → c ∉ portText port := fun hc hmem => hc (hchar _ hmem)
  have hcolon : ':' ∉ portText port := by
    rw [portText_of_nonneg h]
    exact colon_not_mem_decimal _
  have hne : portText port ≠ [] := by
    rw [portText_of_nonneg h]
    exact decimal_ne_nil _
  have hbracket : (portText port).head? ≠ some '[' := fun h =>
    hnot (by decide) (List.mem_of_head? h)
  have hsplit : splitNetwork (portText port) = some (portText port, none) := by
    unfold splitNetwork
    rw [trimSpace_eq_self fun x hx => isSpace_of_isAddrChar (hchar x hx)]
    simp only [if_neg hbracket, cut_eq_none (hnot (by decide : ¬IsAddrChar '/'))]
  have haddress : ipListParseAddress (portText port) = none := by
    rw [ipListParseAddress, if_neg hcolon]
    cases hv4 : ipListParseV4 (portText port) with
    | none => rfl
    | some v =>
      obtain ⟨_, _, _, _, hquad, -⟩ := ipListParseV4_eq_some.mp hv4
      have hdot := hquad.dot_mem
      rw [portText_of_nonneg h] at hdot
      exact absurd hdot (dot_not_mem_decimal _)
  unfold ipListParseAddressToken
  rw [if_neg hne, if_neg (hnot (by decide)), splitTokenPort, if_neg hbracket,
    if_neg (by rw [List.count_eq_zero.mpr hcolon]; omega)]
  simp only
  rw [ipListParseNetwork_eq, hsplit, Option.bind_some, haddress]
  rfl

/-! ## The tokens of a line -/

/-- Groups need a colon less than there are groups, and the dotted tail one less again. -/
theorem length_le_count_colon {tail : Bool} {s : Text} {gs : List ℕ} (h : IsGroups tail s gs) :
    gs.length ≤ s.count ':' + 2 := by
  induction h with
  | last => simp
  | quad => simp
  | cons _ _ ih =>
    simp only [List.length_cons, List.count_append, List.count_cons_self]
    omega

theorem two_le_count_colon {s : Text} {gs : List ℕ} (h : IsIPv6 s gs) : 2 ≤ s.count ':' := by
  cases h with
  | full h hlen =>
    have := length_le_count_colon h
    omega
  | gap => simp only [List.count_append, List.count_cons_self]; omega

theorem count_colon_format (a : IpListParseAddr) :
    (a.v6 = true → 2 ≤ (ipListParseFormat a).count ':') ∧
      (a.v6 = false → (ipListParseFormat a).count ':' = 0) := by
  constructor
  · exact fun h => two_le_count_colon (isIPv6_format h)
  · intro h
    obtain ⟨_, _, _, _, hquad, -⟩ := isQuad_format h
    exact List.count_eq_zero.mpr hquad.colon_not_mem

theorem colon_mem_format_iff (a : IpListParseAddr) : ':' ∈ ipListParseFormat a ↔ a.v6 = true := by
  obtain ⟨h6, h4⟩ := count_colon_format a
  cases hv6 : a.v6 with
  | true =>
    have := h6 hv6
    exact iff_of_true (List.count_pos_iff.mp (by omega)) rfl
  | false => exact iff_of_false (List.count_eq_zero.mp (h4 hv6)) (by simp)

theorem ipListParseFormat_ne_nil (a : IpListParseAddr) : ipListParseFormat a ≠ [] := by
  cases hv6 : a.v6 with
  | true =>
    intro h
    have := (colon_mem_format_iff a).mpr hv6
    rw [h] at this
    simp at this
  | false =>
    obtain ⟨_, _, _, _, hquad, -⟩ := isQuad_format hv6
    intro h
    have := hquad.dot_mem
    rw [h] at this
    simp at this

theorem ipListParseCidr_ne_nil (a : IpListParseAddr) (length : ℕ) : ipListParseCidr a length ≠ [] := by
  simp only [ipListParseCidr]
  split
  · exact ipListParseFormat_ne_nil a
  · simp

theorem count_colon_cidr (a : IpListParseAddr) (length : ℕ) :
    (ipListParseCidr a length).count ':' = (ipListParseFormat a).count ':' := by
  simp only [ipListParseCidr]
  split
  · rfl
  · rw [List.count_append, List.count_append, List.count_eq_zero.mpr (colon_not_mem_decimal _)]
    rfl

variable {a : IpListParseAddr} {length : ℕ}

/-- A canonical CIDR is one address token without a port. -/
theorem Canonical.addressToken_cidr (h : Canonical a length) :
    ipListParseAddressToken (ipListParseCidr a length) = some ([ipListParseCidr a length], -1) := by
  have hbracket : (ipListParseCidr a length).head? ≠ some '[' := fun h =>
    not_mem_cidr (by decide) (by decide) (List.mem_of_head? h)
  have hcount : (ipListParseCidr a length).count ':' ≠ 1 := by
    obtain ⟨h6, h4⟩ := count_colon_format a
    rw [count_colon_cidr]
    cases hv6 : a.v6 with
    | true => have := h6 hv6; omega
    | false => have := h4 hv6; omega
  unfold ipListParseAddressToken
  rw [if_neg (ipListParseCidr_ne_nil a length), if_neg (not_mem_cidr (by decide) (by decide)),
    splitTokenPort, if_neg hbracket, if_neg hcount]
  simp only
  rw [h.ipListParseNetwork_cidr]
  rfl

/-- A host with its port is one address token with the port. -/
theorem Canonical.addressToken_target (h : Canonical a (ipListParseBits a)) {port : Int}
    (hpos : 0 < port) (hle : port ≤ 65535) :
    ipListParseAddressToken (formatTarget (ipListParseFormat a) port) =
      some ([ipListParseCidr a (ipListParseBits a)], port) := by
  have hport := ipListParsePort_portText hpos.le hle
  have hchar := addrChar_portText hpos.le
  have hcast : (port.toNat : Int) = port := Int.toNat_of_nonneg hpos.le
  have hcidr : ipListParseCidr a (ipListParseBits a) = ipListParseFormat a := if_pos (Nat.le_refl _)
  have hnetwork := h.ipListParseNetwork_cidr
  rw [hcidr] at hnetwork
  unfold formatTarget
  rw [if_neg (by omega)]
  by_cases hv6 : a.v6 = true
  · -- `[address]:port`
    rw [if_pos ((colon_mem_format_iff a).mpr hv6)]
    have hclose : ']' ∉ '[' :: ipListParseFormat a := by
      have := not_mem_format a (by decide : ¬IsAddrChar ']')
      simp [this]
    have hcut : cut ']' ('[' :: (ipListParseFormat a ++ ']' :: ':' :: portText port)) =
        some ('[' :: ipListParseFormat a, ':' :: portText port) := by
      rw [← List.cons_append]
      exact cut_append hclose _
    have hhyphen : '-' ∉ '[' :: (ipListParseFormat a ++ ']' :: ':' :: portText port) := by
      have h1 := not_mem_format a (by decide : ¬IsAddrChar '-')
      have h2 : '-' ∉ portText port := fun h => absurd (hchar _ h) (by decide)
      simp [h1, h2]
    have hsplit : splitNetwork ('[' :: (ipListParseFormat a ++ [']'])) =
        splitNetwork (ipListParseFormat a) := by
      have hself := splitNetwork_cidr a (ipListParseBits a)
      rw [hcidr, if_pos (Nat.le_refl _)] at hself
      have htrim : trimSpace ('[' :: (ipListParseFormat a ++ [']'])) =
          '[' :: (ipListParseFormat a ++ [']']) := by
        apply trimSpace_eq_self
        intro x hx
        simp only [List.mem_cons, List.mem_append, List.not_mem_nil, or_false] at hx
        rcases hx with rfl | hx | rfl
        · decide
        · exact isSpace_of_isAddrChar (addrChar_format a x hx)
        · decide
      have hinner : cut ']' ('[' :: (ipListParseFormat a ++ [']'])) =
          some ('[' :: ipListParseFormat a, []) := by
        rw [← List.cons_append]
        exact cut_append hclose _
      rw [hself]
      unfold splitNetwork
      rw [htrim]
      simp only [List.head?_cons, if_true, hinner, List.tail_cons,
        cut_eq_none (not_mem_format a (by decide : ¬IsAddrChar '/')), ne_eq, not_true_eq_false,
        false_and, if_false]
    have hread : ipListParseNetwork ('[' :: (ipListParseFormat a ++ [']'])) =
        some (a, ipListParseBits a) := by
      rw [ipListParseNetwork_eq, hsplit, ← ipListParseNetwork_eq, hnetwork]
    simp only [List.append_assoc, List.cons_append, List.nil_append]
    unfold ipListParseAddressToken splitTokenPort
    rw [if_neg (by simp), if_neg hhyphen, if_pos List.head?_cons, hcut]
    simp only [List.head?_cons, if_true, List.tail_cons, hport, Option.map_some, hcast,
      List.cons_append, hread]
  · -- `address:port`
    have hv4 : a.v6 = false := by simpa using hv6
    rw [if_neg (fun h => hv6 ((colon_mem_format_iff a).mp h))]
    have hcolon : ':' ∉ ipListParseFormat a := fun h => hv6 ((colon_mem_format_iff a).mp h)
    have hcolon' : ':' ∉ portText port := by
      rw [portText_of_nonneg hpos.le]
      exact colon_not_mem_decimal _
    have hcount : (ipListParseFormat a ++ ':' :: portText port).count ':' = 1 := by
      rw [List.count_append, List.count_cons_self, List.count_eq_zero.mpr hcolon,
        List.count_eq_zero.mpr hcolon']
    have hhyphen : '-' ∉ ipListParseFormat a ++ ':' :: portText port := by
      have h1 := not_mem_format a (by decide : ¬IsAddrChar '-')
      have h2 : '-' ∉ portText port := fun h => absurd (hchar _ h) (by decide)
      simp [h1, h2]
    have hbracket : (ipListParseFormat a ++ ':' :: portText port).head? ≠ some '[' := by
      rw [List.head?_append_of_ne_nil _ (ipListParseFormat_ne_nil a)]
      exact fun h => not_mem_format a (by decide) (List.mem_of_head? h)
    simp only [List.append_assoc, List.singleton_append]
    unfold ipListParseAddressToken splitTokenPort
    rw [if_neg (by simp), if_neg hhyphen, if_neg hbracket, if_pos hcount, cut_append hcolon]
    simp only [hport, Option.map_some, hcast, hnetwork]

/-! ## Lines -/

/-- A word that nothing splits or trims. -/
structure PlainWord (w : Text) : Prop where
  ne_nil : w ≠ []
  plain : ∀ c ∈ w, isSpace c = false ∧ isQuote c = false

theorem PlainWord.unquote {w : Text} (h : PlainWord w) : ipListParseUnquote w = w := by
  have hspace := trimSpace_eq_self fun c hc => (h.plain c hc).1
  have hdrop : w.dropWhile isQuote = w := by
    cases w with
    | nil => rfl
    | cons c w => simp [(h.plain c (List.mem_cons_self ..)).2]
  have hrdrop : w.rdropWhile isQuote = w := by
    apply List.rdropWhile_eq_self_iff.mpr
    intro hne
    simp [(h.plain _ (List.getLast_mem hne)).2]
  unfold ipListParseUnquote
  rw [hspace, hdrop, hrdrop, hspace]

theorem PlainWord.split {w : Text} (h : PlainWord w) : ipListParseSplit w false = [w] := by
  unfold ipListParseSplit
  rw [if_neg (by simp), List.splitOnP_eq_singleton fun c hc => (h.plain c hc).1]
  simp [h.ne_nil]

theorem PlainWord.split_cons {w w' : Text} (h : PlainWord w) (h' : PlainWord w') :
    ipListParseSplit (w ++ ' ' :: w') false = [w, w'] := by
  unfold ipListParseSplit
  rw [if_neg (by simp),
    List.splitOnP_append_cons_of_forall_mem (fun c hc => (h.plain c hc).1) ' ' (by decide),
    List.splitOnP_eq_singleton fun c hc => (h'.plain c hc).1]
  simp [h.ne_nil, h'.ne_nil]

theorem PlainWord.wordToken_address {w : Text} (h : PlainWord w) (f : ℕ) {cidrs : List Text}
    {port : Int} (htoken : ipListParseAddressToken w = some (cidrs, port)) :
    wordToken f w = some { text := w, field := f, kind := .address, cidrs, port } := by
  unfold wordToken
  simp only [h.unquote, if_neg h.ne_nil, htoken]

theorem PlainWord.wordToken_port {w : Text} (h : PlainWord w) (f : ℕ) {port : ℕ}
    (htoken : ipListParseAddressToken w = none) (hport : ipListParsePort w = some port) :
    wordToken f w = some { text := w, field := f, kind := .port, cidrs := [], port } := by
  unfold wordToken
  simp only [h.unquote, if_neg h.ne_nil, htoken, hport]

/-- A line without comments, separators and hyphens is taken as it is. -/
structure PlainLine (line : Text) : Prop where
  ne_nil : line ≠ []
  trimmed : trimSpace line = line
  slashes : line.count '/' ≤ 1
  chars : ∀ c ∈ line, IsLineChar c

theorem PlainLine.not_mem {line : Text} (h : PlainLine line) {c : Char} (hc : ¬IsLineChar c) :
    c ∉ line := fun hmem => hc (h.chars c hmem)

theorem PlainLine.content {line : Text} (h : PlainLine line) : lineContent line = some line := by
  have hhash : line.takeWhile (· ≠ '#') = line := List.takeWhile_eq_self_iff.mpr fun x hx => by
    simpa using ne_of_mem_of_not_mem hx (h.not_mem (by decide))
  have hsemicolon : line.head? ≠ some ';' := fun hhead =>
    h.not_mem (by decide) (List.mem_of_head? hhead)
  have hdash := h.not_mem (by decide : ¬IsLineChar '-')
  have hdash' := h.not_mem (by decide : ¬IsLineChar '–')
  unfold lineContent
  simp only [hhash, cutDouble_eq_none h.slashes, h.trimmed]
  rw [if_neg (by simp [h.ne_nil, hsemicolon]), if_neg (by simp [hdash, hdash'])]

theorem PlainLine.separated {line : Text} (h : PlainLine line) : lineSeparated line = false := by
  unfold lineSeparated
  rw [List.any_eq_false]
  intro c hc
  have hchar := h.chars c hc
  have hne : ∀ {d}, ¬IsLineChar d → c ≠ d := fun hd heq => hd (heq ▸ hchar)
  simp [ipListParseIsSeparator, hne (by decide : ¬IsLineChar ','), hne (by decide : ¬IsLineChar ';'),
    hne (by decide : ¬IsLineChar '\t'), hne (by decide : ¬IsLineChar '|')]

section Lines

variable {state : ParseState} {line cidr : Text}

/-- A line that is one address token stores its CIDR with its port. -/
theorem parseLine_word (htabular : state.tabularFile = false) (hline : PlainLine line)
    (hword : PlainWord line) {port : Int}
    (htoken : ipListParseAddressToken line = some ([cidr], port)) :
    parseLine 0 state line =
      { state with firstContentLine := false }.addCidr (if port ≤ 0 then 0 else port) cidr := by
  have hfields : lineFields line = [line] := by
    rw [lineFields, hline.separated, hword.split, List.map_singleton, hword.unquote]
  have htokens : lineTokens (lineFields line) =
      [{ text := line, field := 0, kind := .address, cidrs := [cidr], port }] := by
    rw [hfields]
    simp [lineTokens, hword.split, hword.wordToken_address 0 htoken]
  unfold parseLine
  simp only [hline.content, htokens, hline.separated, htabular, Bool.false_or]
  simp [addTokens, tokenPort, ParseState.add]

/-- A line that is a prefix and a port stores the prefix with the port. -/
theorem parseLine_words (htabular : state.tabularFile = false) {port : Int} (hpos : 0 < port)
    (hle : port ≤ 65535) (hline : PlainLine (cidr ++ ' ' :: portText port))
    (hcidr : PlainWord cidr) (hport : PlainWord (portText port))
    (htoken : ipListParseAddressToken cidr = some ([cidr], -1)) :
    parseLine 0 state (cidr ++ ' ' :: portText port) =
      { state with firstContentLine := false }.addCidr port cidr := by
  have hfields : lineFields (cidr ++ ' ' :: portText port) = [cidr, portText port] := by
    rw [lineFields, hline.separated, hcidr.split_cons hport, List.map_cons, List.map_singleton,
      hcidr.unquote, hport.unquote]
  have htokens : lineTokens (lineFields (cidr ++ ' ' :: portText port)) =
      [{ text := cidr, field := 0, kind := .address, cidrs := [cidr], port := -1 },
        { text := portText port, field := 1, kind := .port, cidrs := [], port }] := by
    rw [hfields]
    have hnone := ipListParseAddressToken_portText hpos.le
    have hsome := ipListParsePort_portText hpos.le hle
    simp [lineTokens, List.zipIdx, hcidr.split, hport.split, hcidr.wordToken_address 0 htoken,
      hport.wordToken_port 1 hnone hsome, Int.toNat_of_nonneg hpos.le]
  unfold parseLine
  simp only [hline.content, htokens, hline.separated, htabular, Bool.false_or]
  simp [addTokens, tokenPort, ParseState.add, Int.not_le.mpr hpos]

end Lines

/-! ## The lines of `FormatEntry` -/

theorem isHostCidr_cidr (h : Canonical a length) :
    isHostCidr (ipListParseCidr a length) = decide (length = ipListParseBits a) := by
  have hslash := not_mem_format a (by decide : ¬IsAddrChar '/')
  unfold isHostCidr
  rw [if_neg (ipListParseCidr_ne_nil a length)]
  unfold ipListParseCidr
  by_cases hfull : length ≥ ipListParseBits a
  · simp [cut_eq_none hslash, Nat.le_antisymm h.le hfull]
  · have hlt : length ≠ ipListParseBits a := by omega
    have hdigits : decimal length ≠ decimal (ipListParseBits a) := fun heq => hlt <| by
      have := congrArg parseDecimal heq
      simpa using this
    simp only [if_neg hfull, List.append_assoc, List.singleton_append, cut_append hslash]
    unfold ipListParseBits at hlt hdigits ⊢
    cases hv6 : a.v6 with
    | true =>
      rw [hv6, if_pos rfl, show decimal 128 = ['1', '2', '8'] by decide] at hdigits
      simpa [(colon_mem_format_iff a).mpr hv6, hv6, show length ≠ 128 by simpa [hv6] using hlt]
        using hdigits
    | false =>
      have hcolon : ':' ∉ ipListParseFormat a := fun h => by
        rw [colon_mem_format_iff, hv6] at h
        cases h
      rw [hv6, if_neg (by simp), show decimal 32 = ['3', '2'] by decide] at hdigits
      simpa [hcolon, hv6, show length ≠ 32 by simpa [hv6] using hlt] using hdigits

theorem isLineChar_of_addrChar {c : Char} (h : IsAddrChar c) : IsLineChar c := Or.inl h

theorem isLineChar_cidr : ∀ c ∈ ipListParseCidr a length, IsLineChar c := fun c hc =>
  (addrChar_ipListParseCidr a length c hc).imp id Or.inl

theorem isQuote_of_isLineChar {c : Char} (h : IsLineChar c) : isQuote c = false := by
  have hne : ∀ {d}, ¬IsLineChar d → c ≠ d := fun hd heq => hd (heq ▸ h)
  simp [isQuote, hne (by decide : ¬IsLineChar '"'), hne (by decide : ¬IsLineChar '\'')]

theorem plainWord_cidr : PlainWord (ipListParseCidr a length) :=
  ⟨ipListParseCidr_ne_nil a length, fun c hc =>
    ⟨isSpace_of_mem_cidr hc, isQuote_of_isLineChar (isLineChar_cidr c hc)⟩⟩

theorem count_slash_cidr : (ipListParseCidr a length).count '/' ≤ 1 := by
  have hslash := List.count_eq_zero.mpr (not_mem_format a (by decide : ¬IsAddrChar '/'))
  have hdigits : (decimal length).count '/' = 0 := List.count_eq_zero.mpr fun h =>
    absurd (addrChar_decimal length _ h) (by decide)
  simp only [ipListParseCidr]
  split
  · omega
  · rw [List.count_append, List.count_append, hslash, hdigits]
    decide

/-- A word of line characters with one slash at most is a plain line. -/
theorem PlainWord.plainLine {w : Text} (h : PlainWord w) (hslash : w.count '/' ≤ 1)
    (hchars : ∀ c ∈ w, IsLineChar c) : PlainLine w :=
  ⟨h.ne_nil, trimSpace_eq_self fun c hc => (h.plain c hc).1, hslash, hchars⟩

theorem plainWord_portText {port : Int} (h : 0 ≤ port) : PlainWord (portText port) := by
  refine ⟨?_, fun c hc => ?_⟩
  · rw [portText_of_nonneg h]
    exact decimal_ne_nil _
  · have := addrChar_portText h c hc
    exact ⟨isSpace_of_isAddrChar this, isQuote_of_isLineChar (isLineChar_of_addrChar this)⟩

theorem count_slash_portText {port : Int} (h : 0 ≤ port) : (portText port).count '/' = 0 :=
  List.count_eq_zero.mpr fun hc => absurd (addrChar_portText h _ hc) (by decide)

/-- The line of a host and a port is a plain word. -/
theorem plainLine_target (a : IpListParseAddr) {port : Int} (h : 0 < port) :
    PlainLine (formatTarget (ipListParseFormat a) port) ∧
      PlainWord (formatTarget (ipListParseFormat a) port) := by
  have hchar : ∀ c ∈ formatTarget (ipListParseFormat a) port,
      IsAddrChar c ∨ c = '[' ∨ c = ']' := by
    intro c hc
    unfold formatTarget at hc
    rw [if_neg (by omega)] at hc
    have hformat := addrChar_format a c
    have hport := addrChar_portText h.le c
    split at hc <;> simp only [List.mem_append, List.mem_cons, List.not_mem_nil, or_false] at hc
    · rcases hc with ((rfl | hc) | rfl | rfl) | hc
      · exact Or.inr (Or.inl rfl)
      · exact Or.inl (hformat hc)
      · exact Or.inr (Or.inr rfl)
      · exact Or.inl (by decide)
      · exact Or.inl (hport hc)
    · rcases hc with (hc | rfl) | hc
      · exact Or.inl (hformat hc)
      · exact Or.inl (by decide)
      · exact Or.inl (hport hc)
  have hline : ∀ c ∈ formatTarget (ipListParseFormat a) port, IsLineChar c := by
    intro c hc
    rcases hchar c hc with h | rfl | rfl
    · exact Or.inl h
    · decide
    · decide
  have hspace : ∀ c ∈ formatTarget (ipListParseFormat a) port, isSpace c = false := by
    intro c hc
    rcases hchar c hc with h | rfl | rfl
    · exact isSpace_of_isAddrChar h
    · decide
    · decide
  have hslash : '/' ∉ formatTarget (ipListParseFormat a) port := fun hc => by
    rcases hchar _ hc with h | h | h
    · exact absurd h (by decide)
    · cases h
    · cases h
  have hne : formatTarget (ipListParseFormat a) port ≠ [] := by
    unfold formatTarget
    rw [if_neg (by omega)]
    split <;> simp
  have hword : PlainWord (formatTarget (ipListParseFormat a) port) :=
    ⟨hne, fun c hc => ⟨hspace c hc, isQuote_of_isLineChar (hline c hc)⟩⟩
  exact ⟨hword.plainLine (by rw [List.count_eq_zero.mpr hslash]; omega) hline, hword⟩

/-- The line of a prefix and a port. -/
theorem plainLine_network {port : Int} (h : 0 ≤ port) :
    PlainLine (ipListParseCidr a length ++ ' ' :: portText port) := by
  have hport := plainWord_portText h
  have hcidr := @plainWord_cidr a length
  refine ⟨by simp, trimSpace_of_ends ?_ ?_, ?_, ?_⟩
  · intro c hc
    rw [List.head?_append_of_ne_nil _ hcidr.ne_nil] at hc
    exact (hcidr.plain c (List.mem_of_head? hc)).1
  · intro c hc
    rw [List.getLast?_append_of_ne_nil _ (by simp), List.getLast?_cons_of_ne_nil hport.ne_nil] at hc
    exact (hport.plain c (List.mem_of_getLast? hc)).1
  · have hspace : ' ' ≠ '/' := by decide
    rw [List.count_append, List.count_cons_of_ne hspace, count_slash_portText h]
    exact count_slash_cidr
  · intro c hc
    simp only [List.mem_append, List.mem_cons] at hc
    rcases hc with hc | rfl | hc
    · exact isLineChar_cidr c hc
    · decide
    · exact isLineChar_of_addrChar (addrChar_portText h c hc)

/-- The three shapes of a line. -/
theorem formatEntry_eq (h : Canonical a length) (port latencyMs : Int) :
    formatEntry ⟨ipListParseCidr a length, port, latencyMs⟩ =
      if port ≤ 0 then ipListParseCidr a length
      else if length = ipListParseBits a then formatTarget (ipListParseFormat a) port
      else ipListParseCidr a length ++ ' ' :: portText port := by
  have hslash := not_mem_format a (by decide : ¬IsAddrChar '/')
  simp only [formatEntry, isHostCidr_cidr h, decide_eq_true_eq]
  by_cases hhost : length = ipListParseBits a
  · subst hhost
    have hcidr : ipListParseCidr a (ipListParseBits a) = ipListParseFormat a :=
      if_pos (Nat.le_refl _)
    simp only [if_true, hcidr, cut_eq_none hslash, formatTarget]
    split <;> rfl
  · simp only [if_neg hhost, List.append_assoc, List.singleton_append]

/-- **The line of an entry stores the entry.** -/
theorem parseLine_formatEntry {state : ParseState} (htabular : state.tabularFile = false)
    {entry : IpListEntry} (hcidr : normalizeCidr entry.cidr = some entry.cidr)
    (hport : 0 ≤ entry.port) (hle : entry.port ≤ 65535) :
    parseLine 0 state (formatEntry entry) =
      { state with firstContentLine := false }.addCidr entry.port entry.cidr := by
  obtain ⟨⟨a, length⟩, hnetwork, heq⟩ := Option.map_eq_some_iff.mp hcidr
  obtain ⟨hc, -⟩ := ipListParseNetwork_spec hnetwork
  obtain ⟨cidr, port, latencyMs⟩ := entry
  simp only at heq hport hle ⊢
  subst heq
  have hword := @plainWord_cidr a length
  have hline := hword.plainLine count_slash_cidr isLineChar_cidr
  rw [formatEntry_eq hc]
  by_cases hzero : port = 0
  · subst hzero
    rw [if_pos (Int.le_refl 0)]
    exact parseLine_word htabular hline hword hc.addressToken_cidr
  · have hpos : 0 < port := by omega
    have hif : (if port ≤ 0 then 0 else port) = port := if_neg (by omega)
    rw [if_neg (by omega)]
    by_cases hhost : length = ipListParseBits a
    · subst hhost
      obtain ⟨hl, hw⟩ := plainLine_target a hpos
      rw [if_pos rfl, parseLine_word htabular hl hw (hc.addressToken_target hpos hle), hif]
    · rw [if_neg hhost]
      exact parseLine_words htabular hpos hle (plainLine_network hport) hword
        (plainWord_portText hport) hc.addressToken_cidr

/-! ## The round trip -/

theorem portText_inj {port port' : Int} (h : 0 ≤ port) (h' : 0 ≤ port')
    (heq : portText port = portText port') : port = port' := by
  rw [portText_of_nonneg h, portText_of_nonneg h'] at heq
  have := congrArg parseDecimal heq
  simp only [parseDecimal_decimal, Option.some.injEq] at this
  omega

/-- What the run over the lines of `entries` has stored. -/
structure Read (entries : List IpListEntry) (state : ParseState) : Prop where
  tabularFile : state.tabularFile = false
  entries_eq : state.result.entries = entries.map fun e => { e with latencyMs := 0 }
  rejected : state.result.rejected = 0
  duplicates : state.result.duplicates = 0
  seen : ∀ key, key ∈ state.seen ↔ ∃ e ∈ entries, key = entryKey e.cidr e.port

/-- One more line. -/
theorem Read.line {entries : List IpListEntry} {state : ParseState} (h : Read entries state)
    {e : IpListEntry} (hcidr : normalizeCidr e.cidr = some e.cidr) (hport : 0 ≤ e.port)
    (hle : e.port ≤ 65535) (hnonneg : ∀ e' ∈ entries, 0 ≤ e'.port)
    (hnew : ∀ e' ∈ entries, (e'.cidr, e'.port) ≠ (e.cidr, e.port)) :
    Read (entries ++ [e]) (parseLine 0 state (formatEntry e)) := by
  have hkey : entryKey e.cidr e.port ∉ state.seen := by
    rw [h.seen]
    rintro ⟨e', he', heq⟩
    obtain ⟨hc, hp⟩ := entryKey_inj heq
    exact hnew e' he' (by rw [hc, portText_inj hport (hnonneg e' he') hp])
  rw [parseLine_formatEntry h.tabularFile hcidr hport hle, ParseState.addCidr]
  simp only [if_neg hkey]
  refine ⟨h.tabularFile, ?_, h.rejected, h.duplicates, fun key => ?_⟩
  · simp [h.entries_eq]
  · rw [List.mem_cons, h.seen]
    constructor
    · rintro (rfl | ⟨e', he', rfl⟩)
      · exact ⟨e, by simp, rfl⟩
      · exact ⟨e', List.mem_append_left _ he', rfl⟩
    · rintro ⟨e', he', rfl⟩
      rcases List.mem_append.mp he' with he' | he'
      · exact Or.inr ⟨e', he', rfl⟩
      · obtain rfl := List.mem_singleton.mp he'
        exact Or.inl rfl

/-- The run over the lines. -/
theorem Read.lines {rest : List IpListEntry} :
    ∀ {entries : List IpListEntry} {state : ParseState}, Read entries state →
      (∀ e ∈ entries ++ rest, normalizeCidr e.cidr = some e.cidr ∧ 0 ≤ e.port ∧ e.port ≤ 65535) →
      ((entries ++ rest).map fun e => (e.cidr, e.port)).Nodup →
      Read (entries ++ rest) ((rest.map formatEntry).foldl (parseLine 0) state) := by
  induction rest with
  | nil =>
    intro entries state h _ _
    rw [List.append_nil]
    exact h
  | cons e rest ih =>
    intro entries state h hall hnodup
    have hsplit : entries ++ e :: rest = entries ++ [e] ++ rest := by simp
    obtain ⟨hcidr, hport, hle⟩ := hall e (by simp)
    have hnew : ∀ e' ∈ entries, (e'.cidr, e'.port) ≠ (e.cidr, e.port) := by
      intro e' he' heq
      rw [List.map_append, List.nodup_append] at hnodup
      exact hnodup.2.2 _ (List.mem_map_of_mem he') _ (List.mem_map_of_mem (List.mem_cons_self ..)) heq
    have hline := h.line hcidr hport hle (fun e' he' => (hall e' (by simp [he'])).2.1) hnew
    rw [hsplit] at hall hnodup ⊢
    rw [List.map_cons, List.foldl_cons]
    exact ih hline hall hnodup

theorem newline_not_mem_formatEntry {e : IpListEntry} (hcidr : normalizeCidr e.cidr = some e.cidr)
    (hport : 0 ≤ e.port) :
    '\n' ∉ formatEntry e ∧ ∀ t, (formatEntry e ++ t).head? ≠ some '\ufeff' := by
  have hchars : formatEntry e ≠ [] ∧ ∀ c ∈ formatEntry e, IsLineChar c := by
    obtain ⟨⟨a, length⟩, hnetwork, heq⟩ := Option.map_eq_some_iff.mp hcidr
    obtain ⟨hc, -⟩ := ipListParseNetwork_spec hnetwork
    obtain ⟨cidr, port, latencyMs⟩ := e
    simp only at heq hport
    subst heq
    rw [formatEntry_eq hc]
    split
    · exact ⟨ipListParseCidr_ne_nil a length, isLineChar_cidr⟩
    · rename_i hpos
      split
      · have hline := (plainLine_target a (Int.not_le.mp hpos)).1
        exact ⟨hline.ne_nil, hline.chars⟩
      · have hline := @plainLine_network a length _ hport
        exact ⟨hline.ne_nil, hline.chars⟩
  refine ⟨fun h => absurd (hchars.2 _ h) (by decide), fun t h => ?_⟩
  rw [List.head?_append_of_ne_nil _ hchars.1] at h
  exact absurd (hchars.2 _ (List.mem_of_head? h)) (by decide)

/-- The lines of a text that ends its last line or not. -/
theorem textLines_formatEntry {entries : List IpListEntry}
    (hentries : ∀ e ∈ entries, normalizeCidr e.cidr = some e.cidr ∧ 0 ≤ e.port) {content : Text}
    (hcontent : content = ['\n'].intercalate (entries.map formatEntry) ∨
      content = entries.flatMap fun e => formatEntry e ++ ['\n']) :
    textLines content = entries.map formatEntry ∨
      textLines content = entries.map formatEntry ++ [[]] := by
  have hline : ∀ e ∈ entries, '\n' ∉ formatEntry e := fun e he =>
    (newline_not_mem_formatEntry (hentries e he).1 (hentries e he).2).1
  have hbom : content.head? ≠ some '\ufeff' := by
    cases entries with
    | nil => rcases hcontent with rfl | rfl <;> simp
    | cons e rest =>
      have he := hentries e (List.mem_cons_self ..)
      have hfirst := (newline_not_mem_formatEntry he.1 he.2).2
      rcases hcontent with rfl | rfl
      · cases rest with
        | nil => simpa using hfirst []
        | cons e' rest =>
          rw [List.map_cons, List.map_cons, List.intercalate_cons_cons, List.append_assoc]
          exact hfirst _
      · rw [List.flatMap_cons, List.append_assoc]
        exact hfirst _
  unfold textLines
  rw [if_neg hbom]
  rcases hcontent with rfl | rfl
  · by_cases hne : entries = []
    · subst hne
      right
      rfl
    · left
      refine List.splitOn_intercalate _ (fun l hl => ?_) (by simpa using hne)
      obtain ⟨e, he, rfl⟩ := List.mem_map.mp hl
      exact hline e he
  · right
    clear hbom hentries
    induction entries with
    | nil => rfl
    | cons e rest ih =>
      rw [List.flatMap_cons, List.append_assoc, List.singleton_append,
        List.splitOn_append_cons_self_of_not_mem (hline e (List.mem_cons_self ..)),
        ih fun e' he' => hline e' (List.mem_cons_of_mem _ he')]
      rfl

/-- **A written list reads back.**  One `FormatEntry` line for each entry, whether the
last line is ended or not. -/
theorem parseIpListText_formatEntry (entries : List IpListEntry)
    (hkeys : (entries.map fun e => (e.cidr, e.port)).Nodup)
    (hentries : ∀ e ∈ entries,
      normalizeCidr e.cidr = some e.cidr ∧ 0 ≤ e.port ∧ e.port ≤ 65535)
    (content : Text)
    (hcontent : content = ['\n'].intercalate (entries.map formatEntry) ∨
      content = entries.flatMap fun e => formatEntry e ++ ['\n']) :
    let result := parseIpListText content 0
    result.entries.map (fun e => (e.cidr, e.port)) = entries.map (fun e => (e.cidr, e.port)) ∧
      result.rejected = 0 ∧ result.duplicates = 0 := by
  have hlines : (textLines content).foldl (parseLine 0) ParseState.start =
      (entries.map formatEntry).foldl (parseLine 0) ParseState.start := by
    have hempty : ∀ state, parseLine 0 state [] = state := fun _ => rfl
    rcases textLines_formatEntry (fun e he => ⟨(hentries e he).1, (hentries e he).2.1⟩) hcontent
      with heq | heq
    · rw [heq]
    · rw [heq, List.foldl_append, List.foldl_cons, hempty, List.foldl_nil]
  have hread := @Read.lines entries [] ParseState.start
    ⟨rfl, rfl, rfl, rfl, by simp [ParseState.start]⟩ hentries hkeys
  rw [List.nil_append, ← hlines] at hread
  have hresult : (parseIpListText content 0) =
      ((textLines content).foldl (parseLine 0) ParseState.start).result := rfl
  rw [hresult]
  exact ⟨by simp [hread.entries_eq, Function.comp_def], hread.rejected, hread.duplicates⟩

/-- One line of every shape. -/
theorem parseIpListText_formatEntry_sample :
    let result := parseIpListText "10.0.0.0/8 443\n1.2.3.4:80\n[2001:db8::1]:8443\n::/3".toList 0
    result.entries.map (fun e => (e.cidr, e.port)) =
      [("10.0.0.0/8".toList, 443), ("1.2.3.4".toList, 80), ("2001:db8::1".toList, 8443),
        ("::/3".toList, 0)] ∧ result.rejected = 0 ∧ result.duplicates = 0 :=
  parseIpListText_formatEntry
    [⟨"10.0.0.0/8".toList, 443, 0⟩, ⟨"1.2.3.4".toList, 80, 0⟩, ⟨"2001:db8::1".toList, 8443, 7⟩,
      ⟨"::/3".toList, 0, 0⟩]
    (by decide) (by decide +kernel) _ (Or.inl (by decide))

end Throned.Scanner
