import Throned.Library.BigEndian

/-!
# Expressions of nftables

A rule is a row of expressions over a few registers.  A load that has nothing to load and a
comparison that fails end the rule; a verdict ends the chain.  The labels of a flow are the one
state that a rule changes.
-/

set_option autoImplicit false

namespace Throned.Library.Nft

/-! ## Sets -/

structure Element where
  key : Bytes
  intervalEnd : Bool := false

/-- The elements of an interval set are the ends of its intervals; one without an end is open. -/
structure ElementSet where
  interval : Bool := false
  keyLength : ℕ
  elements : List Element

namespace ElementSet

/-- A key is in an interval whose start is not behind it, and that has not ended. -/
def contains (set : ElementSet) (key : Bytes) : Bool :=
  if set.interval then
    set.elements.any fun start => !start.intervalEnd && decide (beNat start.key ≤ beNat key) &&
      !set.elements.any fun stop => stop.intervalEnd && decide (beNat start.key < beNat stop.key) &&
        decide (beNat stop.key ≤ beNat key)
  else set.elements.any fun element => element.key = key

end ElementSet

/-! ## Expressions -/

inductive MetaKey where
  | NFPROTO
  | L4PROTO
  | IIFNAME
  | OIFNAME
  | SKGID
  deriving DecidableEq

inductive PayloadBase where
  | network
  | transport
  deriving DecidableEq

inductive CtKey where
  | LABELS
  | DIRECTION
  deriving DecidableEq

inductive CmpOp where
  | eq
  | neq
  deriving DecidableEq

inductive Verdict where
  | accept
  | drop
  deriving DecidableEq

inductive Expr where
  | metaLoad (key : MetaKey) (register : ℕ)
  | payload (base : PayloadBase) (offset len destRegister : ℕ)
  | ct (key : CtKey) (register : ℕ)
  /-- The labels are set from the register. -/
  | ctSet (register : ℕ)
  | immediate (register : ℕ) (data : Bytes)
  | bitwise (sourceRegister destRegister len : ℕ) (mask xor : Bytes)
  | cmp (op : CmpOp) (register : ℕ) (data : Bytes)
  | range (register : ℕ) (fromData toData : Bytes)
  | lookup (sourceRegister : ℕ) (set : ElementSet)
  | verdict (kind : Verdict)

/-- What a packet shows to a rule. -/
structure View where
  metaValue : MetaKey → Option Bytes
  header : PayloadBase → Bytes
  /-- The direction within the flow, for a packet that belongs to one. -/
  direction : Option UInt8

/-- A part of a header, if it is all there. -/
def load (header : Bytes) (offset len : ℕ) : Option Bytes :=
  if offset + len ≤ header.length then some ((header.drop offset).take len) else none

theorem length_of_load {header data : Bytes} {offset len : ℕ} (h : load header offset len = some data) :
    data.length = len := by
  unfold load at h
  split at h
  · rename_i hall
    rw [← Option.some.inj h, List.length_take, List.length_drop]
    omega
  · exact absurd h (by simp)

abbrev Registers := ℕ → Bytes

def Registers.set (regs : Registers) (register : ℕ) (data : Bytes) : Registers :=
  fun r => if r = register then data else regs r

def Registers.empty : Registers := fun _ => []

def CmpOp.holds (op : CmpOp) (a b : Bytes) : Bool :=
  match op with
  | .eq => a = b
  | .neq => a ≠ b

/-- One rule: a verdict, or none when it does not match, and the labels behind it. -/
def run (view : View) : List Expr → Registers → Bytes → Option Verdict × Bytes
  | [], _, labels => (none, labels)
  | .metaLoad key register :: rest, regs, labels =>
    match view.metaValue key with
    | none => (none, labels)
    | some data => run view rest (regs.set register data) labels
  | .payload base offset len register :: rest, regs, labels =>
    match load (view.header base) offset len with
    | none => (none, labels)
    | some data => run view rest (regs.set register data) labels
  | .ct .LABELS register :: rest, regs, labels =>
    if view.direction.isSome then run view rest (regs.set register labels) labels
    else (none, labels)
  | .ct .DIRECTION register :: rest, regs, labels =>
    match view.direction with
    | none => (none, labels)
    | some direction => run view rest (regs.set register [direction]) labels
  | .ctSet register :: rest, regs, labels =>
    run view rest regs
      (if view.direction.isSome then List.zipWith (· ||| ·) labels (regs register) else labels)
  | .immediate register data :: rest, regs, labels =>
    run view rest (regs.set register data) labels
  | .bitwise source dest len mask xor :: rest, regs, labels =>
    run view rest (regs.set dest
      (List.zipWith (· ^^^ ·) (List.zipWith (· &&& ·) ((regs source).take len) mask) xor)) labels
  | .cmp op register data :: rest, regs, labels =>
    if op.holds ((regs register).take data.length) data then run view rest regs labels
    else (none, labels)
  | .range register fromData toData :: rest, regs, labels =>
    let value := beNat ((regs register).take fromData.length)
    if decide (beNat fromData ≤ value) && decide (value ≤ beNat toData) then
      run view rest regs labels
    else (none, labels)
  | .lookup source set :: rest, regs, labels =>
    if set.contains ((regs source).take set.keyLength) then run view rest regs labels
    else (none, labels)
  | .verdict kind :: _, _, labels => (some kind, labels)

/-- The first rule with a verdict decides. -/
def runChain (view : View) (policy : Verdict) : List (List Expr) → Bytes → Verdict × Bytes
  | [], labels => (policy, labels)
  | rule :: rules, labels =>
    match run view rule .empty labels with
    | (some verdict, labels) => (verdict, labels)
    | (none, labels) => runChain view policy rules labels

/-! ## Matches -/

section Matches

variable (view : View)

/-- Expressions that go on exactly when the condition holds of the labels, and change nothing. -/
def Matches (exprs : List Expr) (cond : Bytes → Prop) [DecidablePred cond] : Prop :=
  ∀ regs labels rest, ∃ regs', run view (exprs ++ rest) regs labels =
    if cond labels then run view rest regs' labels else (none, labels)

/-- A rule that decides exactly when the condition holds of the labels. -/
structure Decides (rule : List Expr) (cond : Bytes → Prop) [DecidablePred cond]
    (kind : Verdict) (after : Bytes → Bytes) : Prop where
  run_eq : ∀ regs labels, run view rule regs labels =
    if cond labels then (some kind, after labels) else (none, labels)

variable {view}

theorem Matches.nil : Matches view [] fun _ => True := by
  intro regs labels rest
  exact ⟨regs, by rw [List.nil_append, if_pos trivial]⟩

theorem Matches.congr {exprs : List Expr} {cond cond' : Bytes → Prop} [DecidablePred cond]
    [DecidablePred cond'] (h : Matches view exprs cond) (heq : ∀ labels, cond labels ↔ cond' labels) :
    Matches view exprs cond' := by
  intro regs labels rest
  obtain ⟨regs', hrun⟩ := h regs labels rest
  exact ⟨regs', hrun.trans (by simp only [heq])⟩

/-- **Matches in a row are a conjunction.** -/
theorem Matches.append {a b : List Expr} {cond cond' : Bytes → Prop} [DecidablePred cond]
    [DecidablePred cond'] (ha : Matches view a cond) (hb : Matches view b cond') :
    Matches view (a ++ b) fun labels => cond labels ∧ cond' labels := by
  intro regs labels rest
  obtain ⟨regs', hfirst⟩ := ha regs labels (b ++ rest)
  obtain ⟨regs'', hsecond⟩ := hb regs' labels rest
  refine ⟨regs'', ?_⟩
  rw [List.append_assoc, hfirst, hsecond]
  by_cases hcond : cond labels
  · by_cases hcond' : cond' labels
    · rw [if_pos hcond, if_pos hcond', if_pos ⟨hcond, hcond'⟩]
    · rw [if_pos hcond, if_neg hcond', if_neg fun h => hcond' h.2]
  · rw [if_neg hcond, if_neg fun h => hcond h.1]

/-- A match in front of a verdict. -/
theorem Matches.verdict {exprs : List Expr} {cond : Bytes → Prop} [DecidablePred cond]
    (h : Matches view exprs cond) (kind : Verdict) :
    Decides view (exprs ++ [.verdict kind]) cond kind id where
  run_eq regs labels := by
    obtain ⟨regs', hrun⟩ := h regs labels [.verdict kind]
    rw [hrun]
    rfl

/-! ### The matches of one value -/

theorem Matches.metaLoad (key : MetaKey) (register : ℕ) (data : Bytes) :
    Matches view [.metaLoad key register, .cmp .eq register data]
      fun _ => (view.metaValue key).any (fun value => value.take data.length = data) = true := by
  intro regs labels rest
  cases hvalue : view.metaValue key with
  | none => exact ⟨regs, by simp [run, hvalue]⟩
  | some value =>
    refine ⟨regs.set register value, ?_⟩
    simp [run, hvalue, CmpOp.holds, Registers.set]

theorem Matches.payload (base : PayloadBase) (offset register : ℕ) (data : Bytes) :
    Matches view [.payload base offset data.length register, .cmp .eq register data]
      fun _ => load (view.header base) offset data.length = some data := by
  intro regs labels rest
  cases hvalue : load (view.header base) offset data.length with
  | none => exact ⟨regs, by simp [run, hvalue]⟩
  | some value =>
    have hlength : value.length ≤ data.length := (length_of_load hvalue).le
    refine ⟨regs.set register value, ?_⟩
    simp [run, hvalue, CmpOp.holds, Registers.set, List.take_of_length_le hlength]

theorem Matches.range (base : PayloadBase) (offset register : ℕ) (fromData toData : Bytes) :
    Matches view
      [.payload base offset fromData.length register, .range register fromData toData]
      fun _ => (load (view.header base) offset fromData.length).any
        (fun value => beNat fromData ≤ beNat value ∧ beNat value ≤ beNat toData) = true := by
  intro regs labels rest
  cases hvalue : load (view.header base) offset fromData.length with
  | none => exact ⟨regs, by simp [run, hvalue]⟩
  | some value =>
    have hlength : value.length ≤ fromData.length := (length_of_load hvalue).le
    refine ⟨regs.set register value, ?_⟩
    simp [run, hvalue, Registers.set, List.take_of_length_le hlength]

theorem Matches.lookup (base : PayloadBase) (offset register : ℕ) (set : ElementSet) :
    Matches view [.payload base offset set.keyLength register, .lookup register set]
      fun _ => (load (view.header base) offset set.keyLength).any set.contains = true := by
  intro regs labels rest
  cases hvalue : load (view.header base) offset set.keyLength with
  | none => exact ⟨regs, by simp [run, hvalue]⟩
  | some value =>
    have hlength : value.length ≤ set.keyLength := (length_of_load hvalue).le
    refine ⟨regs.set register value, ?_⟩
    simp [run, hvalue, Registers.set, List.take_of_length_le hlength]

theorem Matches.direction (register : ℕ) (direction : UInt8) :
    Matches view [.ct .DIRECTION register, .cmp .eq register [direction]]
      fun _ => view.direction = some direction := by
  intro regs labels rest
  cases hvalue : view.direction with
  | none => exact ⟨regs, by simp [run, hvalue]⟩
  | some value =>
    refine ⟨regs.set register [value], ?_⟩
    simp [run, hvalue, CmpOp.holds, Registers.set]

/-- A flow has a label when a bit of the mask is set in its labels. -/
def hasLabel (mask labels : Bytes) : Prop :=
  List.zipWith (· &&& ·) (labels.take mask.length) mask ≠ List.replicate mask.length 0

instance (mask : Bytes) : DecidablePred (hasLabel mask) := fun _ => inferInstanceAs (Decidable (_ ≠ _))

theorem zipWith_xor_zero (bytes : Bytes) {n : ℕ} (h : bytes.length ≤ n) :
    List.zipWith (· ^^^ ·) bytes (List.replicate n 0) = bytes := by
  induction bytes generalizing n with
  | nil => simp
  | cons b bytes ih =>
    obtain ⟨n, rfl⟩ : ∃ m, n = m + 1 := ⟨n - 1, by rw [List.length_cons] at h; omega⟩
    rw [List.length_cons] at h
    rw [List.replicate_succ, List.zipWith_cons_cons, ih (by omega)]
    simp

theorem zipWith_and_or {a b : Bytes} (h : a.length = b.length) :
    List.zipWith (· &&& ·) (List.zipWith (· ||| ·) a b) b = b := by
  induction a generalizing b with
  | nil => simp [List.length_eq_zero_iff.mp h.symm]
  | cons x a ih =>
    cases b with
    | nil => rfl
    | cons y b =>
      have hbyte : (x ||| y) &&& y = y := by
        apply UInt8.toBitVec_inj.mp
        ext i hi
        simp only [UInt8.toBitVec_and, UInt8.toBitVec_or, BitVec.getElem_and, BitVec.getElem_or]
        cases x.toBitVec[i] <;> cases y.toBitVec[i] <;> rfl
      rw [List.zipWith_cons_cons, List.zipWith_cons_cons, hbyte, ih (by simpa using h)]

/-- **Labels with a mask added have its label.** -/
theorem hasLabel_or {mask labels : Bytes} (h : labels.length = mask.length)
    (hmask : mask ≠ List.replicate mask.length 0) :
    hasLabel mask (List.zipWith (· ||| ·) labels mask) := by
  unfold hasLabel
  rw [List.take_of_length_le (by simp [h]), zipWith_and_or h]
  exact hmask

theorem not_hasLabel_zero (mask : Bytes) : ¬ hasLabel mask (List.replicate mask.length 0) := by
  unfold hasLabel
  rw [List.take_of_length_le (by simp), not_ne_iff]
  induction mask with
  | nil => rfl
  | cons b mask ih =>
    rw [List.length_cons, List.replicate_succ, List.zipWith_cons_cons, ih]
    simp

theorem Matches.label (register : ℕ) (mask : Bytes) :
    Matches view
      [.ct .LABELS register,
        .bitwise register register mask.length mask (List.replicate mask.length 0),
        .cmp .neq register (List.replicate mask.length 0)]
      fun labels => view.direction.isSome = true ∧ hasLabel mask labels := by
  intro regs labels rest
  have hlength : (List.zipWith (· &&& ·) (labels.take mask.length) mask).length ≤ mask.length := by
    rw [List.length_zipWith]
    exact Nat.min_le_right _ _
  cases hvalue : view.direction with
  | none => exact ⟨regs, by simp [run, hvalue]⟩
  | some value =>
    refine ⟨(regs.set register labels).set register
      (List.zipWith (· &&& ·) (labels.take mask.length) mask), ?_⟩
    simp [run, hvalue, CmpOp.holds, Registers.set, zipWith_xor_zero _ hlength, hasLabel,
      List.take_of_length_le hlength]

/-- A match that sets a label in front of its verdict. -/
theorem Matches.setLabel {exprs : List Expr} {cond : Bytes → Prop} [DecidablePred cond]
    (h : Matches view exprs cond) (register : ℕ) (data : Bytes) (kind : Verdict) :
    Decides view (exprs ++ [.immediate register data, .ctSet register, .verdict kind]) cond kind
      fun labels =>
        if view.direction.isSome then List.zipWith (· ||| ·) labels data else labels where
  run_eq regs labels := by
    obtain ⟨regs', hrun⟩ := h regs labels [.immediate register data, .ctSet register, .verdict kind]
    rw [hrun]
    simp [run, Registers.set]

/-! ### Chains -/

/-- What some rules of a chain decide, with the labels behind them. -/
def Settles (view : View) (rules : List (List Expr))
    (outcome : Bytes → Option (Verdict × Bytes)) : Prop :=
  ∀ policy rest labels, runChain view policy (rules ++ rest) labels =
    (outcome labels).getD (runChain view policy rest labels)

theorem Settles.nil : Settles view [] fun _ => none := fun _ _ _ => rfl

theorem Decides.settles {rule : List Expr} {cond : Bytes → Prop} [DecidablePred cond]
    {kind : Verdict} {after : Bytes → Bytes} (h : Decides view rule cond kind after) :
    Settles view [rule] fun labels => if cond labels then some (kind, after labels) else none := by
  intro policy rest labels
  rw [List.singleton_append, runChain, h.run_eq]
  by_cases hcond : cond labels
  · simp only [if_pos hcond, Option.getD_some]
  · simp only [if_neg hcond, Option.getD_none]

/-- **The first rules that decide win.** -/
theorem Settles.append {a b : List (List Expr)} {f g : Bytes → Option (Verdict × Bytes)}
    (ha : Settles view a f) (hb : Settles view b g) :
    Settles view (a ++ b) fun labels => f labels <|> g labels := by
  intro policy rest labels
  rw [List.append_assoc, ha, hb]
  cases hf : f labels with
  | none => simp [hf]
  | some outcome => simp [hf]

/-- Rules of one verdict: they decide exactly when the condition holds of the labels. -/
def Gives (view : View) (kind : Verdict) (rules : List (List Expr)) (cond : Bytes → Prop)
    [DecidablePred cond] : Prop :=
  Settles view rules fun labels => if cond labels then some (kind, labels) else none

theorem Gives.nil (kind : Verdict) : Gives view kind [] fun _ => False := by
  unfold Gives
  simp only [if_false]
  exact Settles.nil

theorem Gives.congr {kind : Verdict} {rules : List (List Expr)} {cond cond' : Bytes → Prop}
    [DecidablePred cond] [DecidablePred cond'] (h : Gives view kind rules cond)
    (heq : ∀ labels, cond labels ↔ cond' labels) : Gives view kind rules cond' := by
  intro policy rest labels
  rw [h policy rest labels]
  simp only [heq]

theorem Matches.gives {exprs : List Expr} {cond : Bytes → Prop} [DecidablePred cond]
    (h : Matches view exprs cond) (kind : Verdict) :
    Gives view kind [exprs ++ [.verdict kind]] cond :=
  (h.verdict kind).settles

/-- **Rules of one verdict in a row are a disjunction.** -/
theorem Gives.append {kind : Verdict} {a b : List (List Expr)} {cond cond' : Bytes → Prop}
    [DecidablePred cond] [DecidablePred cond'] (ha : Gives view kind a cond)
    (hb : Gives view kind b cond') :
    Gives view kind (a ++ b) fun labels => cond labels ∨ cond' labels := by
  intro policy rest labels
  rw [(Settles.append ha hb) policy rest labels]
  by_cases hcond : cond labels
  · simp [hcond]
  · simp [hcond]

theorem Settles.runChain_eq {rules : List (List Expr)} {f : Bytes → Option (Verdict × Bytes)}
    (h : Settles view rules f) (policy : Verdict) (labels : Bytes) :
    runChain view policy rules labels = (f labels).getD (policy, labels) := by
  have hall := h policy [] labels
  rwa [List.append_nil] at hall

end Matches

/-! ## Interval sets -/

/-- The elements of ranges of keys; a range that ends at the last key is left open. -/
def rangeElements (key : ℕ → Bytes) (last : ℕ) (ranges : List (ℕ × ℕ)) : List Element :=
  ranges.flatMap fun range =>
    { key := key range.1 } ::
      if range.2 = last then [] else [{ key := key (range.2 + 1), intervalEnd := true }]

theorem mem_rangeElements {key : ℕ → Bytes} {last : ℕ} {ranges : List (ℕ × ℕ)} {e : Element} :
    e ∈ rangeElements key last ranges ↔
      (∃ range ∈ ranges, e = { key := key range.1 }) ∨
        ∃ range ∈ ranges, range.2 ≠ last ∧ e = { key := key (range.2 + 1), intervalEnd := true } := by
  unfold rangeElements
  rw [List.mem_flatMap]
  constructor
  · rintro ⟨range, hrange, he⟩
    obtain rfl | he := List.mem_cons.mp he
    · exact .inl ⟨range, hrange, rfl⟩
    · split at he
      · exact absurd he List.not_mem_nil
      · rename_i hopen
        exact .inr ⟨range, hrange, hopen, List.mem_singleton.mp he⟩
  · rintro (⟨range, hrange, rfl⟩ | ⟨range, hrange, hopen, rfl⟩)
    · exact ⟨range, hrange, List.mem_cons_self⟩
    · exact ⟨range, hrange, List.mem_cons_of_mem _ (by rw [if_neg hopen]; exact List.mem_cons_self)⟩

/-- **An interval set holds the keys of its ranges**, when no two of them touch. -/
theorem contains_rangeElements {key : ℕ → Bytes} {last : ℕ} {ranges : List (ℕ × ℕ)}
    (hkey : ∀ n ≤ last, beNat (key n) = n) (hranges : ∀ range ∈ ranges, range.1 ≤ range.2)
    (hlast : ∀ range ∈ ranges, range.2 ≤ last)
    (happart : ∀ a ∈ ranges, ∀ b ∈ ranges, a = b ∨ a.2 + 1 < b.1 ∨ b.2 + 1 < a.1)
    (keyLength : ℕ) {value : Bytes} (hvalue : beNat value ≤ last) :
    ElementSet.contains
        { interval := true, keyLength, elements := rangeElements key last ranges } value = true ↔
      ∃ range ∈ ranges, range.1 ≤ beNat value ∧ beNat value ≤ range.2 := by
  have hends {range : ℕ × ℕ} (hrange : range ∈ ranges) (hopen : range.2 ≠ last) :
      beNat (key (range.2 + 1)) = range.2 + 1 := by
    have hle := hlast range hrange
    exact hkey _ (by omega)
  have hstarts {range : ℕ × ℕ} (hrange : range ∈ ranges) : beNat (key range.1) = range.1 := by
    have hle := hlast range hrange
    have horder := hranges range hrange
    exact hkey _ (by omega)
  unfold ElementSet.contains
  simp only [if_true, List.any_eq_true, Bool.and_eq_true, Bool.not_eq_true', decide_eq_true_eq]
  constructor
  · rintro ⟨start, hstart, ⟨hkind, hbelow⟩, hnone⟩
    obtain ⟨range, hrange, rfl⟩ | ⟨range, -, -, rfl⟩ := mem_rangeElements.mp hstart
    · rw [hstarts hrange] at hbelow
      refine ⟨range, hrange, hbelow, ?_⟩
      have horder := hranges range hrange
      by_cases hopen : range.2 = last
      · rw [hopen]
        exact hvalue
      · have hstop := List.any_eq_false.mp hnone _
          (mem_rangeElements.mpr (.inr ⟨range, hrange, hopen, rfl⟩))
        simp only [hstarts hrange, hends hrange hopen, Bool.true_and, Bool.and_eq_true,
          decide_eq_true_eq, not_and] at hstop
        have hlate := hstop (by omega)
        omega
    · exact absurd hkind (by simp)
  · rintro ⟨range, hrange, hlow, hhigh⟩
    refine ⟨_, mem_rangeElements.mpr (.inl ⟨range, hrange, rfl⟩), ⟨rfl, ?_⟩, ?_⟩
    · rw [hstarts hrange]
      exact hlow
    · refine List.any_eq_false.mpr fun stop hstop => ?_
      obtain ⟨other, hother, rfl⟩ | ⟨other, hother, hopen, rfl⟩ := mem_rangeElements.mp hstop
      · simp
      · simp only [hstarts hrange, hends hother hopen, Bool.true_and, Bool.and_eq_true,
          decide_eq_true_eq, not_and]
        have horder := hranges other hother
        obtain rfl | hafter | hbefore := happart range hrange other hother
        · omega
        · omega
        · omega

end Throned.Library.Nft
