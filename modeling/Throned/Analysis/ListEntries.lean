import Throned.Analysis.TokenNetworks

/-!
# The entries of a list

Which CIDRs end up in the entries of a parsed text: those of its address tokens, line by
line.  Hence a text is read faithfully exactly when none of its ranges straddles the
IPv4-mapped addresses (`parseIpListText_faithful_iff`).
-/

set_option autoImplicit false

namespace Throned.Scanner

open Throned.Library

/-! ## Keys -/

theorem append_cons_inj {c : Char} {l r l' r' : Text} (hr : c ∉ r) (hr' : c ∉ r')
    (h : l ++ c :: r = l' ++ c :: r') : l = l' ∧ r = r' := by
  have hrev := congrArg (cut c ∘ List.reverse) h
  simp only [Function.comp, List.reverse_append, List.reverse_cons, List.append_assoc,
    List.singleton_append] at hrev
  rw [cut_append (by simpa using hr), cut_append (by simpa using hr')] at hrev
  simp only [Option.some.injEq, Prod.mk.injEq, List.reverse_inj] at hrev
  exact ⟨hrev.2, hrev.1⟩

theorem space_not_mem_portText (port : Int) : ' ' ∉ portText port := by
  have hdigits : ∀ n, ' ' ∉ decimal n := fun n h => by
    have := decimalDigit_of_mem_decimal h
    revert this
    decide
  unfold portText
  split
  · simp [hdigits]
  · exact hdigits _

theorem entryKey_inj {cidr cidr' : Text} {port port' : Int}
    (h : entryKey cidr port = entryKey cidr' port') :
    cidr = cidr' ∧ portText port = portText port' := by
  simp only [entryKey, List.append_assoc, List.singleton_append] at h
  exact append_cons_inj (space_not_mem_portText port) (space_not_mem_portText port') h

/-! ## The CIDRs stored -/

namespace ParseState

/-- The CIDRs of the entries. -/
def stored (state : ParseState) : Set Text := {cidr | ∃ e ∈ state.result.entries, e.cidr = cidr}

/-- Every key seen belongs to an entry. -/
def SeenStored (state : ParseState) : Prop :=
  ∀ key ∈ state.seen, ∃ e ∈ state.result.entries, entryKey e.cidr e.port = key

/-- A piece of the parser that stores the CIDRs `new`. -/
def Stores (state state' : ParseState) (new : Set Text) : Prop :=
  state.SeenStored → state'.SeenStored ∧ state'.stored = state.stored ∪ new

theorem Stores.trans {s s' s'' : ParseState} {new new' : Set Text} (h : s.Stores s' new)
    (h' : s'.Stores s'' new') : s.Stores s'' (new ∪ new') := by
  intro hs
  obtain ⟨hs', heq⟩ := h hs
  obtain ⟨hs'', heq'⟩ := h' hs'
  exact ⟨hs'', by rw [heq', heq, Set.union_assoc]⟩

/-- A step that leaves entries and keys alone stores nothing. -/
theorem stores_empty {s s' : ParseState} (hentries : s'.result.entries = s.result.entries)
    (hseen : s'.seen = s.seen) : s.Stores s' ∅ := by
  intro hs
  unfold SeenStored stored
  rw [hentries, hseen, Set.union_empty]
  exact ⟨hs, rfl⟩

theorem stores_reject (s : ParseState) (token : Text) : s.Stores (s.reject token) ∅ :=
  stores_empty rfl rfl

theorem stores_addCidr (s : ParseState) (port : Int) (cidr : Text) :
    s.Stores (s.addCidr port cidr) {cidr} := by
  intro hs
  unfold addCidr
  by_cases hkey : entryKey cidr port ∈ s.seen
  · simp only [if_pos hkey]
    refine ⟨hs, ?_⟩
    obtain ⟨e, he, heq⟩ := hs _ hkey
    have hcidr : cidr ∈ s.stored := ⟨e, he, (entryKey_inj heq).1⟩
    exact (Set.union_eq_left.mpr (Set.singleton_subset_iff.mpr hcidr)).symm
  · simp only [if_neg hkey]
    constructor
    · intro key hmem
      rcases List.mem_cons.mp hmem with rfl | hmem
      · exact ⟨⟨cidr, port, 0⟩, by simp, rfl⟩
      · obtain ⟨e, he, heq⟩ := hs key hmem
        exact ⟨e, List.mem_append_left _ he, heq⟩
    · ext c
      simp only [stored, List.mem_append, List.mem_singleton, Set.mem_ofPred_eq, Set.mem_union,
        Set.mem_singleton_iff]
      constructor
      · rintro ⟨e, he | rfl, rfl⟩
        · exact Or.inl ⟨e, he, rfl⟩
        · exact Or.inr rfl
      · rintro (⟨e, he, rfl⟩ | rfl)
        · exact ⟨e, Or.inl he, rfl⟩
        · exact ⟨_, Or.inr rfl, rfl⟩

theorem stores_add (s : ParseState) (defaultPort : Int) (cidrs : List Text) (port : Int) :
    s.Stores (s.add defaultPort cidrs port) {c | c ∈ cidrs} := by
  unfold add
  generalize (if port ≤ 0 then defaultPort else port) = port
  induction cidrs generalizing s with
  | nil =>
    rw [show {c | c ∈ ([] : List Text)} = ∅ by ext; simp]
    exact stores_empty rfl rfl
  | cons cidr cidrs ih =>
    rw [List.foldl_cons,
      show {c | c ∈ cidr :: cidrs} = {cidr} ∪ {c | c ∈ cidrs} by ext; simp]
    exact (stores_addCidr s port cidr).trans (ih _)

end ParseState

open ParseState

/-! ## Lines -/

/-- The CIDRs of a list of tokens. -/
def tokenCidrs (tokens : List IpListParseToken) : Set Text := {c | ∃ t ∈ tokens, c ∈ t.cidrs}

theorem tokenCidrs_cons (token : IpListParseToken) (tokens : List IpListParseToken) :
    tokenCidrs (token :: tokens) = {c | c ∈ token.cidrs} ∪ tokenCidrs tokens := by
  ext c
  simp [tokenCidrs]

/-- The parts of a token agree with its text. -/
def IpListParseToken.Parsed (token : IpListParseToken) : Prop :=
  if token.kind = .address then ipListParseAddressToken token.text = some (token.cidrs, token.port)
  else token.cidrs = []

theorem parsed_wordToken {f : ℕ} {word : Text} {token : IpListParseToken}
    (h : wordToken f word = some token) : token.Parsed := by
  unfold wordToken at h
  simp only [Option.ite_none_left_eq_some, Option.some.injEq] at h
  obtain ⟨-, rfl⟩ := h
  unfold IpListParseToken.Parsed
  cases haddress : ipListParseAddressToken (ipListParseUnquote word) with
  | some parts => simp [haddress]
  | none => cases ipListParsePort (ipListParseUnquote word) <;> simp

theorem parsed_of_mem_lineTokens {fields : List Text} {token : IpListParseToken}
    (h : token ∈ lineTokens fields) : token.Parsed := by
  simp only [lineTokens, List.mem_flatMap, List.mem_filterMap] at h
  obtain ⟨_, -, _, -, h⟩ := h
  exact parsed_wordToken h

theorem tokenPort_consumed {state : ParseState} {fields : List Text} {token : IpListParseToken}
    {next : Option IpListParseToken} (h : (tokenPort state fields token next).2 = true) :
    ∃ t, next = some t ∧ t.kind = .port := by
  unfold tokenPort at h
  split at h
  · split at h
    · split at h
      · split at h <;> cases h
      · cases h
    · cases h
  · split at h
    · cases next with
      | none => cases h
      | some t =>
        simp only at h
        split at h
        · rename_i hkind
          exact ⟨t, rfl, hkind⟩
        · cases h
    · cases h

/-- The loop over the tokens of a line stores their CIDRs; a token taken as a port has
none. -/
theorem stores_addTokens (defaultPort : Int) (tabular : Bool) (fields : List Text)
    (tokens : List IpListParseToken) (hparsed : ∀ t ∈ tokens, t.Parsed) :
    ∀ (consumed : Bool) (s : ParseState),
      (consumed = true → ∀ t ∈ tokens.head?, t.kind = .port) →
      s.Stores (addTokens defaultPort tabular fields consumed s tokens) (tokenCidrs tokens) := by
  induction tokens with
  | nil =>
    intro consumed s _
    rw [show tokenCidrs [] = ∅ by ext; simp [tokenCidrs]]
    cases consumed <;> exact stores_empty rfl rfl
  | cons token tokens ih =>
    intro consumed s hconsumed
    have ih := ih fun t ht => hparsed t (List.mem_cons_of_mem _ ht)
    have htoken := hparsed token (List.mem_cons_self ..)
    have hnone : token.kind ≠ .address → ({c | c ∈ token.cidrs} : Set Text) = ∅ := by
      intro hkind
      rw [IpListParseToken.Parsed, if_neg hkind] at htoken
      ext
      simp [htoken]
    rw [tokenCidrs_cons]
    cases consumed with
    | true =>
      have hkind : token.kind = .port := hconsumed rfl token rfl
      rw [hnone (by simp [hkind]), Set.empty_union, addTokens]
      exact ih false s (by simp)
    | false =>
      rw [addTokens]
      cases hkind : token.kind with
      | address =>
        simp only
        refine (stores_add s defaultPort token.cidrs _).trans (ih _ _ fun h t ht => ?_)
        obtain ⟨t', ht', hport⟩ := tokenPort_consumed h
        rw [ht'] at ht
        obtain rfl := Option.some.inj ht
        exact hport
      | port =>
        simp only
        rw [hnone (by simp [hkind])]
        refine Stores.trans ?_ (ih false _ (by simp))
        split
        · exact stores_reject s _
        · exact stores_empty rfl rfl
      | other =>
        simp only
        rw [hnone (by simp [hkind])]
        refine Stores.trans ?_ (ih false _ (by simp))
        split
        · exact stores_reject s _
        · exact stores_empty rfl rfl

/-- Rejecting tokens stores nothing. -/
theorem stores_foldl_empty {α : Type} {f : ParseState → α → ParseState}
    (hf : ∀ (s : ParseState) x, s.Stores (f s x) ∅) (xs : List α) :
    ∀ s : ParseState, s.Stores (xs.foldl f s) ∅ := by
  induction xs with
  | nil => exact fun s => stores_empty rfl rfl
  | cons x xs ih =>
    intro s
    rw [List.foldl_cons, ← Set.union_empty ∅]
    exact (hf s x).trans (ih _)

theorem stores_plainLine (s : ParseState) (line : Text) (fields : List Text) (tabular : Bool)
    (tokens : List IpListParseToken) : s.Stores (plainLine s line fields tabular tokens) ∅ := by
  have hfirst : s.Stores { s with firstContentLine := false } ∅ := stores_empty rfl rfl
  unfold plainLine
  simp only
  split
  · exact stores_empty rfl rfl
  · rw [← Set.union_empty ∅]
    refine hfirst.trans ?_
    split
    · exact stores_foldl_empty (fun s t => stores_reject s _) _ _
    · split
      · refine stores_foldl_empty (fun s t => ?_) _ _
        split
        · exact stores_reject s _
        · exact stores_empty rfl rfl
      · exact stores_reject _ _

/-- The address tokens of a line. -/
def lineAddressTokens (line : Text) : List IpListParseToken :=
  match lineContent line with
  | none => []
  | some line => (lineTokens (lineFields line)).filter (·.kind = .address)

/-- **A line stores the CIDRs of its address tokens.** -/
theorem stores_parseLine (defaultPort : Int) (s : ParseState) (line : Text) :
    s.Stores (parseLine defaultPort s line) (tokenCidrs (lineAddressTokens line)) := by
  have hempty : tokenCidrs [] = ∅ := by
    ext
    simp [tokenCidrs]
  unfold parseLine lineAddressTokens
  cases lineContent line with
  | none =>
    rw [hempty]
    exact stores_empty rfl rfl
  | some line =>
    simp only
    have hparsed := fun t => @parsed_of_mem_lineTokens (lineFields line) t
    revert hparsed
    generalize lineTokens (lineFields line) = tokens
    intro hparsed
    -- the other tokens have no CIDRs
    have hfilter : tokenCidrs (tokens.filter (·.kind = .address)) = tokenCidrs tokens := by
      ext c
      simp only [tokenCidrs, List.mem_filter, decide_eq_true_eq, Set.mem_ofPred_eq]
      refine ⟨fun ⟨t, ht, hc⟩ => ⟨t, ht.1, hc⟩, fun ⟨t, ht, hc⟩ => ⟨t, ⟨ht, ?_⟩, hc⟩⟩
      by_contra hkind
      have := hparsed t ht
      rw [IpListParseToken.Parsed, if_neg hkind] at this
      simp [this] at hc
    split
    · rename_i hnil
      rw [hnil, List.filter_nil, hempty]
      exact stores_empty rfl rfl
    · split
      · rename_i hall
        have hnil : tokens.filter (·.kind = .address) = [] := by
          rw [List.filter_eq_nil_iff]
          intro t ht
          simpa using List.all_eq_true.mp hall t ht
        rw [hnil, hempty]
        exact stores_plainLine _ _ _ _ _
      · have hfirst : s.Stores { s with firstContentLine := false } ∅ := stores_empty rfl rfl
        rw [hfilter, ← Set.empty_union (tokenCidrs tokens)]
        exact hfirst.trans (stores_addTokens _ _ _ _ hparsed false _ (by simp))

/-! ## Texts -/

/-- The address tokens of a text. -/
def addressTokens (content : Text) : List IpListParseToken :=
  (textLines content).flatMap lineAddressTokens

theorem stores_lines (defaultPort : Int) (lines : List Text) :
    ∀ s : ParseState,
      s.Stores (lines.foldl (parseLine defaultPort) s)
        (tokenCidrs (lines.flatMap lineAddressTokens)) := by
  induction lines with
  | nil =>
    intro s
    rw [show tokenCidrs (List.flatMap lineAddressTokens []) = ∅ by ext; simp [tokenCidrs]]
    exact stores_empty rfl rfl
  | cons line lines ih =>
    intro s
    have happend : tokenCidrs ((line :: lines).flatMap lineAddressTokens) =
        tokenCidrs (lineAddressTokens line) ∪ tokenCidrs (lines.flatMap lineAddressTokens) := by
      ext c
      simp [tokenCidrs, or_and_right, exists_or]
    rw [List.foldl_cons, happend]
    exact (stores_parseLine defaultPort s line).trans (ih _)

/-- **The CIDRs of the entries are those of the address tokens.** -/
theorem cidrs_parseIpListText (content : Text) (defaultPort : Int) (cidr : Text) :
    (∃ e ∈ (parseIpListText content defaultPort).entries, e.cidr = cidr) ↔
      ∃ token ∈ addressTokens content, cidr ∈ token.cidrs := by
  have hrun := stores_lines (if defaultPort < 0 ∨ defaultPort > 65535 then 0 else defaultPort)
    (textLines content) ParseState.start (by simp [SeenStored, start])
  have hset := Set.ext_iff.mp hrun.2 cidr
  simpa [stored, start, tokenCidrs, addressTokens, parseIpListText] using hset

theorem addressToken_of_mem {content : Text} {token : IpListParseToken}
    (h : token ∈ addressTokens content) :
    ipListParseAddressToken token.text = some (token.cidrs, token.port) := by
  simp only [addressTokens, List.mem_flatMap] at h
  obtain ⟨line, -, h⟩ := h
  unfold lineAddressTokens at h
  split at h
  · simp at h
  · obtain ⟨hmem, hkind⟩ := List.mem_filter.mp h
    have := parsed_of_mem_lineTokens hmem
    rwa [IpListParseToken.Parsed, if_pos (by simpa using hkind)] at this

/-- A text is read faithfully: the CIDRs of its entries are fixed points of
`NormalizeCidr`, they are those of its address tokens, and the core reads back from a
token's CIDRs the addresses the token stands for. -/
structure ReadFaithfully (content : Text) (defaultPort : Int) : Prop where
  fixed : ∀ e ∈ (parseIpListText content defaultPort).entries, normalizeCidr e.cidr = some e.cidr
  stored : ∀ cidr, (∃ e ∈ (parseIpListText content defaultPort).entries, e.cidr = cidr) ↔
    ∃ token ∈ addressTokens content, cidr ∈ token.cidrs
  denotes : ∀ token ∈ addressTokens content, readBack token.cidrs = tokenDenotes token.text

/-- **`NormalizeCidr` is idempotent, and a text is read faithfully exactly when none of
its ranges straddles the IPv4-mapped addresses.** -/
theorem parseIpListText_faithful_iff (content : Text) (defaultPort : Int) :
    (∀ text cidr, normalizeCidr text = some cidr → normalizeCidr cidr = some cidr) ∧
      (ReadFaithfully content defaultPort ↔
        ∀ token ∈ addressTokens content, ¬StraddlesMapped token.text) := by
  refine ⟨fun _ _ => normalizeCidr_idempotent, ?_, ?_⟩
  · intro h token htoken
    refine (token_faithful_iff (addressToken_of_mem htoken)).mp
      ⟨fun cidr hcidr => ?_, h.denotes token htoken⟩
    obtain ⟨e, he, rfl⟩ := (h.stored cidr).mpr ⟨token, htoken, hcidr⟩
    exact h.fixed e he
  · intro h
    have hfaithful := fun token htoken =>
      (token_faithful_iff (addressToken_of_mem htoken)).mpr (h token htoken)
    refine ⟨fun e he => ?_, cidrs_parseIpListText content defaultPort,
      fun token htoken => (hfaithful token htoken).2⟩
    obtain ⟨token, htoken, hcidr⟩ :=
      (cidrs_parseIpListText content defaultPort e.cidr).mp ⟨e, he, rfl⟩
    exact (hfaithful token htoken).1 _ hcidr

/-- The range `::fffe:0:1-::1:0:0:0` is not read faithfully. -/
theorem not_readFaithfully_straddling :
    ¬∀ (content : Text) (defaultPort : Int), ReadFaithfully content defaultPort := by
  intro h
  have hentries : (⟨"::ffff:0:0/96".toList, 0, 0⟩ : IpListEntry) ∈
      (parseIpListText "::fffe:0:1-::1:0:0:0".toList 0).entries := by decide +kernel
  have hfixed := (h "::fffe:0:1-::1:0:0:0".toList 0).fixed _ hentries
  revert hfixed
  decide

end Throned.Scanner
