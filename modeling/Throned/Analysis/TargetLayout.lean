import Throned.Analysis.TargetRanges
import Throned.Library.Tiling

/-!
# The layout of the ranges

`segments` lists what the loop of `NewTargets` adds, entry by entry; `layRanges_eq`
says that the loop builds exactly the ranges of these segments.  The segments tile the
positions below the total (`segments_tiles`), each is a range of its entry's prefix and
ports (`segment_valid`), and as long as the total is not capped each covers all pairs
of a host and a port (`segments_exact`).
-/

set_option autoImplicit false

namespace Throned.Scan

open Throned.Library

/-- A range together with the entry's prefix and the number of positions it takes. -/
structure Segment where
  pfx : Prefix
  ports : List ℕ
  hosts : Word64
  sampled : Bool
  start : Word64
  count : Word64

def Segment.range (seed : Word64) (s : Segment) : TargetRange :=
  newRange seed s.pfx s.ports s.sampled s.start

/-- The ports of a valid entry of a spec. -/
def Spec.portsOf (spec : Spec) (port : ℕ) : List ℕ :=
  entryPorts spec.portMode port (normalizePorts spec.defaultPorts)

/-- The segment an entry adds to a layout of the given total. -/
def segmentOf (spec : Spec) (total : Word64) (entry : Entry) : Option Segment :=
  match entry.parse with
  | none => none
  | some (p, port) =>
    let ports := spec.portsOf port
    let (hosts, sampled) := entryHosts spec.limit p.hostBits
    let count := entryCount total hosts ports
    if count = 0 then none else some { pfx := p, ports, hosts, sampled, start := total, count }

def segments (spec : Spec) : Word64 → List Entry → List Segment
  | _, [] => []
  | total, entry :: entries =>
    match segmentOf spec total entry with
    | none => segments spec total entries
    | some s => s :: segments spec (total + s.count) entries

/-- The total after some entries. -/
def totalAfter (spec : Spec) : Word64 → List Entry → Word64
  | total, [] => total
  | total, entry :: entries =>
    match segmentOf spec total entry with
    | none => totalAfter spec total entries
    | some s => totalAfter spec (total + s.count) entries

/-- What one round of the loop does to the layout. -/
theorem addEntry_cases (spec : Spec) (t : Targets) (entry : Entry) :
    let t' := addEntry spec spec.limit (normalizePorts spec.defaultPorts) t entry
    (segmentOf spec t.total entry = none ∧ t'.ranges = t.ranges ∧ t'.total = t.total ∧
        t'.sampledEntries = t.sampledEntries) ∨
      ∃ s, segmentOf spec t.total entry = some s ∧ t'.ranges = t.ranges ++ [s.range spec.seed] ∧
        t'.total = t.total + s.count ∧
        t'.sampledEntries = t.sampledEntries + if s.sampled then 1 else 0 := by
  intro t'
  cases hparse : entry.parse with
  | none =>
    left
    simp only [t', segmentOf, addEntry, hparse, and_self]
  | some pair =>
    obtain ⟨p, port⟩ := pair
    rcases hhosts : entryHosts spec.limit p.hostBits with ⟨hosts, sampled⟩
    by_cases hcount : entryCount t.total hosts (spec.portsOf port) = 0
    · left
      have hc := hcount
      unfold Spec.portsOf at hc
      simp only [t', segmentOf, addEntry, hparse, hhosts, hcount, hc, if_true, and_self]
    · right
      have hc := hcount
      unfold Spec.portsOf at hc
      refine ⟨⟨p, spec.portsOf port, hosts, sampled, t.total, _⟩,
        by simp only [segmentOf, hparse, hhosts, if_neg hcount]; rfl, ?_⟩
      simp only [t', addEntry, hparse, hhosts, if_neg hc]
      refine ⟨rfl, rfl, ?_⟩
      split <;> rfl

/-- **The loop of `NewTargets`** builds the ranges of the segments. -/
theorem layRanges_eq (spec : Spec) :
    (layRanges spec).ranges = (segments spec 0 spec.entries).map (·.range spec.seed) ∧
      (layRanges spec).total = totalAfter spec 0 spec.entries ∧
      (layRanges spec).sampledEntries =
        (segments spec 0 spec.entries).countP (·.sampled) := by
  have hfold : ∀ (entries : List Entry) (t : Targets),
      let t' := entries.foldl (addEntry spec spec.limit (normalizePorts spec.defaultPorts)) t
      t'.ranges = t.ranges ++ (segments spec t.total entries).map (·.range spec.seed) ∧
        t'.total = totalAfter spec t.total entries ∧
        t'.sampledEntries =
          t.sampledEntries + (segments spec t.total entries).countP (·.sampled) := by
    intro entries
    induction entries with
    | nil => intro t; simp [segments, totalAfter]
    | cons entry entries ih =>
      intro t
      obtain ⟨hranges, htotal, hsampled⟩ :=
        ih (addEntry spec spec.limit (normalizePorts spec.defaultPorts) t entry)
      simp only [List.foldl_cons]
      rcases addEntry_cases spec t entry with ⟨hs, h1, h2, h3⟩ | ⟨s, hs, h1, h2, h3⟩
      · rw [hranges, htotal, hsampled, h1, h2, h3]
        simp only [segments, totalAfter, hs, and_self]
      · rw [hranges, htotal, hsampled, h1, h2, h3]
        simp only [segments, totalAfter, hs, List.map_cons, List.append_assoc,
          List.singleton_append, List.countP_cons, true_and]
        omega
  have := hfold spec.entries
    { ranges := [], total := 0, shuffle := spec.shuffle, order := zeroMixer
      sampledEntries := 0, invalidEntries := 0 }
  simpa [layRanges] using this

/-! ## Ports -/

/-- After the ports `done`, `normalizePorts` has seen those in range and kept each once. -/
structure Normalized (done : List Int) (acc : List ℕ × List Int) : Prop where
  nodup : acc.1.Nodup
  seen : ∀ q, q ∈ acc.2 ↔ 1 ≤ q ∧ q ≤ 0xffff ∧ q ∈ done
  kept : ∀ port : ℕ, port ∈ acc.1 ↔ (port : Int) ∈ acc.2

theorem normalizeStep_normalized {done : List Int} {acc : List ℕ × List Int}
    (h : Normalized done acc) (q : Int) :
    Normalized (done ++ [q]) (normalizeStep acc q) := by
  obtain ⟨hnodup, hseen, hkept⟩ := h
  unfold normalizeStep
  split
  · refine ⟨hnodup, fun x => ?_, hkept⟩
    rw [hseen, List.mem_append, List.mem_singleton]
    refine ⟨fun h => ⟨h.1, h.2.1, Or.inl h.2.2⟩, ?_⟩
    rintro ⟨h1, h2, h3 | rfl⟩
    · exact ⟨h1, h2, h3⟩
    · omega
  · rename_i hrange
    split
    · rename_i hdup
      refine ⟨hnodup, fun x => ?_, hkept⟩
      rw [hseen, List.mem_append, List.mem_singleton]
      refine ⟨fun h => ⟨h.1, h.2.1, Or.inl h.2.2⟩, ?_⟩
      rintro ⟨h1, h2, h3 | rfl⟩
      · exact ⟨h1, h2, h3⟩
      · exact (hseen x).mp hdup
    · rename_i hnew
      have hq : (q.toNat : Int) = q := Int.toNat_of_nonneg (by omega)
      refine ⟨?_, fun x => ?_, fun port => ?_⟩
      · refine List.nodup_append.mpr ⟨hnodup, List.nodup_singleton _, ?_⟩
        rintro a ha b hb rfl
        rw [List.mem_singleton] at hb
        rw [hkept, hb, hq] at ha
        exact hnew ha
      · rw [List.mem_cons, hseen, List.mem_append, List.mem_singleton]
        constructor
        · rintro (rfl | h)
          · exact ⟨by omega, by omega, Or.inr rfl⟩
          · exact ⟨h.1, h.2.1, Or.inl h.2.2⟩
        · rintro ⟨h1, h2, h3 | h3⟩
          · exact Or.inr ⟨h1, h2, h3⟩
          · exact Or.inl h3
      · rw [List.mem_append, List.mem_singleton, hkept, List.mem_cons]
        constructor
        · rintro (h | rfl)
          · exact Or.inr h
          · exact Or.inl hq
        · rintro (h | h)
          · exact Or.inr (by omega)
          · exact Or.inl h

theorem normalized_nil : Normalized [] ([], []) := ⟨List.nodup_nil, by simp, by simp⟩

theorem normalized_foldl (ports : List Int) : ∀ {done : List Int} {acc : List ℕ × List Int},
    Normalized done acc → Normalized (done ++ ports) (ports.foldl normalizeStep acc) := by
  induction ports with
  | nil =>
    intro done acc h
    simpa using h
  | cons q ports ih =>
    intro done acc h
    have := ih (normalizeStep_normalized h q)
    simpa using this

/-- **`normalizePorts`** keeps each port in range exactly once. -/
theorem normalizePorts_spec (ports : List Int) :
    (normalizePorts ports).Nodup ∧
      ∀ port : ℕ, port ∈ normalizePorts ports ↔
        1 ≤ port ∧ port ≤ 0xffff ∧ (port : Int) ∈ ports := by
  obtain ⟨hnodup, hseen, hkept⟩ := normalized_foldl ports normalized_nil
  refine ⟨hnodup, fun port => ?_⟩
  rw [normalizePorts, hkept, hseen, List.nil_append]
  exact and_congr (by omega) (and_congr (by omega) Iff.rfl)

/-- **An entry's ports**: at least one, none twice, all of them 16-bit. -/
theorem entryPorts_spec (mode : String) {port : ℕ} {defaults : List ℕ} (hport : port ≤ 0xffff)
    (hnodup : defaults.Nodup) (hle : ∀ q ∈ defaults, q ≤ 0xffff) :
    entryPorts mode port defaults ≠ [] ∧ (entryPorts mode port defaults).Nodup ∧
      ∀ q ∈ entryPorts mode port defaults, q ≤ 0xffff := by
  unfold entryPorts
  generalize hports : (if mode = portModeIgnore then defaults
    else if mode = portModeList then (if port ≠ 0 then [port] else [])
    else if mode = portModeMerge then
      (if port = 0 then defaults else port :: defaults.filter (· ≠ port))
    else if port ≠ 0 then [port] else defaults) = ports
  have hgood : ports.Nodup ∧ ∀ q ∈ ports, q ≤ 0xffff := by
    subst hports
    split_ifs
    · exact ⟨hnodup, hle⟩
    · exact ⟨List.nodup_singleton _, by simpa using hport⟩
    · exact ⟨List.nodup_nil, by simp⟩
    · exact ⟨hnodup, hle⟩
    · refine ⟨List.nodup_cons.mpr ⟨by simp, hnodup.filter _⟩, ?_⟩
      intro q hq
      rcases List.mem_cons.mp hq with rfl | hq
      · exact hport
      · exact hle q (List.mem_of_mem_filter hq)
    · exact ⟨List.nodup_singleton _, by simpa using hport⟩
    · exact ⟨hnodup, hle⟩
  dsimp only
  split
  · exact ⟨by simp, List.nodup_singleton _, by simp⟩
  · rename_i hlen
    exact ⟨fun h => hlen (by rw [h]; rfl), hgood.1, hgood.2⟩

/-- A list of distinct 16-bit numbers is short. -/
theorem length_le_of_nodup {ports : List ℕ} (hnodup : ports.Nodup)
    (hle : ∀ q ∈ ports, q ≤ 0xffff) : ports.length ≤ 0x10000 := by
  rw [← List.toFinset_card_of_nodup hnodup]
  calc ports.toFinset.card ≤ (Finset.range 0x10000).card := by
        apply Finset.card_le_card
        intro q hq
        have := hle q (List.mem_toFinset.mp hq)
        exact Finset.mem_range.mpr (by omega)
    _ = 0x10000 := Finset.card_range _

theorem portsOf_spec (spec : Spec) {port : ℕ} (hport : port ≤ 0xffff) :
    spec.portsOf port ≠ [] ∧ (spec.portsOf port).Nodup ∧ (spec.portsOf port).length ≤ 0x10000 := by
  obtain ⟨hnodup, hmem⟩ := normalizePorts_spec spec.defaultPorts
  obtain ⟨hne, hnd, hle⟩ := entryPorts_spec spec.portMode hport hnodup
    fun q hq => ((hmem q).mp hq).2.1
  exact ⟨hne, hnd, length_le_of_nodup hnd hle⟩

/-! ## Counts -/

theorem toNat_maxTargetTotal : maxTargetTotal.toNat = 2 ^ 62 := rfl

/-- The product, capped. -/
theorem toNat_saturatingMul (a b : Word64) :
    (saturatingMul a b).toNat = min (a.toNat * b.toNat) (2 ^ 62) := by
  have hprod : a.toNat * b.toNat < 2 ^ 64 * 2 ^ 64 := Nat.mul_lt_mul'' a.isLt b.isLt
  unfold saturatingMul
  generalize a.toNat * b.toNat = product at hprod ⊢
  have hhigh : (BitVec.ofNat 64 (product / 2 ^ 64)).toNat = product / 2 ^ 64 := by
    rw [BitVec.toNat_ofNat, Nat.mod_eq_of_lt (Nat.div_lt_of_lt_mul hprod)]
  have hzero : BitVec.ofNat 64 (product / 2 ^ 64) ≠ 0 ↔ 2 ^ 64 ≤ product := by
    constructor
    · intro hne
      by_contra hlt
      apply hne
      rw [Nat.div_eq_of_lt (by omega)]
      rfl
    · intro hle heq
      rw [heq, show (0 : Word64).toNat = 0 from rfl] at hhigh
      omega
  simp only [gt_iff_lt, BitVec.lt_def, toNat_maxTargetTotal, BitVec.toNat_ofNat, hzero]
  split
  · rename_i hcond
    rw [toNat_maxTargetTotal]
    omega
  · rename_i hcond
    rw [BitVec.toNat_ofNat]
    omega

/-- An entry adds all its pairs, or as many as fit below the cap. -/
theorem toNat_entryCount {total hosts : Word64} {ports : List ℕ} (htotal : total.toNat ≤ 2 ^ 62)
    (hlen : ports.length ≤ 0x10000) :
    (entryCount total hosts ports).toNat =
      min (hosts.toNat * ports.length) (2 ^ 62 - total.toNat) := by
  have hn : (BitVec.ofNat 64 ports.length).toNat = ports.length := by
    rw [BitVec.toNat_ofNat, Nat.mod_eq_of_lt (by omega)]
  have hmul := toNat_saturatingMul hosts (BitVec.ofNat 64 ports.length)
  have hrem : (maxTargetTotal - total).toNat = 2 ^ 62 - total.toNat := by
    rw [BitVec.toNat_sub_of_le (by rw [BitVec.le_def, toNat_maxTargetTotal]; exact htotal),
      toNat_maxTargetTotal]
  rw [hn] at hmul
  simp only [entryCount, gt_iff_lt, BitVec.lt_def, hmul, hrem]
  split <;> omega

/-! ## The segments of a spec -/

/-- How many pairs of a host and a port the valid entries have, without a cap. -/
def exactTotal (spec : Spec) : List Entry → ℕ
  | [] => 0
  | entry :: entries =>
    match entry.parse with
    | none => exactTotal spec entries
    | some (p, port) =>
      (entryHosts spec.limit p.hostBits).1.toNat * (spec.portsOf port).length +
        exactTotal spec entries

theorem parseTargetPrefix_masked {text : Text} {p : Prefix}
    (h : parseTargetPrefix text = some p) : p.masked = p := by
  unfold parseTargetPrefix at h
  simp only [Option.map_eq_some_iff] at h
  obtain ⟨q, -, rfl⟩ := h
  exact Prefix.masked_masked _

/-- The parts of a valid entry: a normalized prefix and a 16-bit port. -/
theorem parse_spec {entry : Entry} {p : Prefix} {port : ℕ} (h : entry.parse = some (p, port)) :
    p.masked = p ∧ port ≤ 0xffff := by
  unfold Entry.parse at h
  split at h
  · exact absurd h (by simp)
  · rename_i q hq
    split at h
    · exact absurd h (by simp)
    · simp only [Option.some.injEq, Prod.mk.injEq] at h
      obtain ⟨rfl, rfl⟩ := h
      exact ⟨parseTargetPrefix_masked hq, by omega⟩

/-- What a segment is: an entry's prefix and ports, with at most all of its pairs. -/
structure Segment.Of (spec : Spec) (entry : Entry) (s : Segment) : Prop where
  parse : ∃ port, entry.parse = some (s.pfx, port) ∧ s.ports = spec.portsOf port
  hosts : entryHosts spec.limit s.pfx.hostBits = (s.hosts, s.sampled)
  count_pos : 0 < s.count.toNat
  count : s.count.toNat = min (s.hosts.toNat * s.ports.length) (2 ^ 62 - s.start.toNat)

theorem segmentOf_spec {spec : Spec} {total : Word64} {entry : Entry} {s : Segment}
    (htotal : total.toNat ≤ 2 ^ 62) (h : segmentOf spec total entry = some s) :
    Segment.Of spec entry s ∧ s.start = total := by
  unfold segmentOf at h
  split at h
  · exact absurd h (by simp)
  · rename_i p port hparse
    rcases hhosts : entryHosts spec.limit p.hostBits with ⟨hosts, sampled⟩
    simp only [hhosts] at h
    split at h
    · exact absurd h (by simp)
    · rename_i hne
      simp only [Option.some.injEq] at h
      subst h
      have hcount := @toNat_entryCount _ hosts _ htotal (portsOf_spec spec (parse_spec hparse).2).2.2
      refine ⟨⟨⟨port, hparse, rfl⟩, hhosts, ?_, hcount⟩, rfl⟩
      apply Nat.pos_of_ne_zero
      intro hzero
      exact hne (BitVec.eq_of_toNat_eq hzero)

theorem count_le {spec : Spec} {entry : Entry} {s : Segment} (h : s.Of spec entry) :
    s.count.toNat ≤ s.hosts.toNat * s.ports.length := by
  rw [h.count]
  exact min_le_left _ _

/-- The next segment starts where this one ends, still within the cap. -/
theorem Segment.Of.next {spec : Spec} {entry : Entry} {s : Segment} {total : Word64}
    (h : s.Of spec entry) (hstart : s.start = total) (htotal : total.toNat ≤ 2 ^ 62) :
    (total + s.count).toNat = total.toNat + s.count.toNat ∧
      total.toNat + s.count.toNat ≤ 2 ^ 62 := by
  have hcount := h.count
  rw [hstart] at hcount
  rw [BitVec.toNat_add, Nat.mod_eq_of_lt (by omega)]
  exact ⟨rfl, by omega⟩

/-- **A segment's range is a range of its prefix**, with all it needs to be one. -/
theorem Segment.Of.rangeOf {spec : Spec} {entry : Entry} {s : Segment} (h : s.Of spec entry) :
    RangeOf (s.range spec.seed) s.pfx s.hosts.toNat := by
  obtain ⟨port, hparse, hports⟩ := h.parse
  obtain ⟨hmasked, hport⟩ := parse_spec hparse
  obtain ⟨hne, hnodup, hlen⟩ := portsOf_spec spec hport
  obtain ⟨-, hall, hsome⟩ := entryHosts_spec h.hosts
  refine ⟨?_, rfl, ?_, ?_, ?_, hall, ?_⟩
  · rw [hmasked]
    rfl
  · rw [show (s.range spec.seed).ports = s.ports from rfl, hports]
    exact hne
  · rw [show (s.range spec.seed).ports = s.ports from rfl, hports]
    exact hnodup
  · rw [show (s.range spec.seed).ports = s.ports from rfl, hports]
    omega
  · intro hs
    obtain ⟨hpos, hle⟩ := hsome hs
    refine ⟨hpos, hle, ?_⟩
    have hsampler : (s.range spec.seed).sampler =
        newMixer (min s.pfx.hostBits 64) (spec.seed ^^^ prefixHash s.pfx) := by
      simp only [Segment.range, newRange] at hs ⊢
      rw [if_pos hs]
    rw [hsampler]
    exact newMixer_mixesWidth (by omega) (min_le_right _ _) _

/-- **The segments tile the positions below the total**, which never passes the cap. -/
theorem segments_tiles (spec : Spec) (entries : List Entry) (total : Word64)
    (htotal : total.toNat ≤ 2 ^ 62) :
    Tiles (fun s : Segment => s.start.toNat) (fun s => s.count.toNat) total.toNat
        (segments spec total entries) (totalAfter spec total entries).toNat ∧
      (totalAfter spec total entries).toNat ≤ 2 ^ 62 := by
  induction entries generalizing total with
  | nil => exact ⟨rfl, htotal⟩
  | cons entry entries ih =>
    cases hs : segmentOf spec total entry with
    | none =>
      simp only [segments, totalAfter, hs]
      exact ih total htotal
    | some s =>
      obtain ⟨hof, hstart⟩ := segmentOf_spec htotal hs
      obtain ⟨hadd, hcap⟩ := hof.next hstart htotal
      obtain ⟨htiles, hle⟩ := ih (total + s.count) (by omega)
      simp only [segments, totalAfter, hs]
      rw [hadd] at htiles
      exact ⟨⟨congrArg BitVec.toNat hstart, hof.count_pos, htiles⟩, hle⟩

/-- **The total is the exact count, capped.** -/
theorem toNat_totalAfter (spec : Spec) (entries : List Entry) (total : Word64)
    (htotal : total.toNat ≤ 2 ^ 62) :
    (totalAfter spec total entries).toNat =
      min (total.toNat + exactTotal spec entries) (2 ^ 62) := by
  induction entries generalizing total with
  | nil =>
    simp only [totalAfter, exactTotal]
    omega
  | cons entry entries ih =>
    cases hparse : entry.parse with
    | none =>
      have hseg : segmentOf spec total entry = none := by simp only [segmentOf, hparse]
      simp only [totalAfter, exactTotal, hseg, hparse]
      exact ih total htotal
    | some pair =>
      obtain ⟨p, port⟩ := pair
      rcases hhosts : entryHosts spec.limit p.hostBits with ⟨hosts, sampled⟩
      have hcount := @toNat_entryCount _ hosts _ htotal (portsOf_spec spec (parse_spec hparse).2).2.2
      simp only [totalAfter, exactTotal, segmentOf, hparse, hhosts]
      split
      · rename_i hseg
        simp only [ite_eq_left_iff, reduceCtorEq, imp_false, not_not] at hseg
        rw [hseg, show (0 : Word64).toNat = 0 from rfl] at hcount
        rw [ih total htotal]
        omega
      · rename_i s hseg
        split at hseg
        · exact absurd hseg (by simp)
        · simp only [Option.some.injEq] at hseg
          subst hseg
          dsimp only
          have hadd : (total + entryCount total hosts (spec.portsOf port)).toNat =
              total.toNat + (entryCount total hosts (spec.portsOf port)).toNat := by
            rw [BitVec.toNat_add, Nat.mod_eq_of_lt (by omega)]
          rw [ih _ (by omega), hadd]
          omega

/-- Every segment comes from an entry. -/
theorem segments_of (spec : Spec) (entries : List Entry) (total : Word64)
    (htotal : total.toNat ≤ 2 ^ 62) {s : Segment} (hs : s ∈ segments spec total entries) :
    ∃ entry ∈ entries, s.Of spec entry := by
  induction entries generalizing total with
  | nil => simp [segments] at hs
  | cons entry entries ih =>
    cases hseg : segmentOf spec total entry with
    | none =>
      simp only [segments, hseg] at hs
      obtain ⟨e, he, hof⟩ := ih total htotal hs
      exact ⟨e, List.mem_cons_of_mem _ he, hof⟩
    | some s' =>
      obtain ⟨hof, hstart⟩ := segmentOf_spec htotal hseg
      obtain ⟨hadd, hcap⟩ := hof.next hstart htotal
      simp only [segments, hseg, List.mem_cons] at hs
      rcases hs with rfl | hs
      · exact ⟨entry, List.mem_cons_self, hof⟩
      · obtain ⟨e, he, hof'⟩ := ih (total + s'.count) (by omega) hs
        exact ⟨e, List.mem_cons_of_mem _ he, hof'⟩

/-- The normalized prefixes of the valid entries. -/
def Spec.validPrefixes (spec : Spec) : List Prefix :=
  spec.entries.filterMap fun entry => entry.parse.map Prod.fst

/-- The prefixes of the segments are prefixes of valid entries, in order. -/
theorem segments_sublist (spec : Spec) (entries : List Entry) (total : Word64)
    (htotal : total.toNat ≤ 2 ^ 62) :
    ((segments spec total entries).map Segment.pfx).Sublist
      (entries.filterMap fun entry => entry.parse.map Prod.fst) := by
  induction entries generalizing total with
  | nil => exact List.Sublist.slnil
  | cons entry entries ih =>
    cases hseg : segmentOf spec total entry with
    | none =>
      simp only [segments, hseg]
      refine (ih total htotal).trans ?_
      rw [List.filterMap_cons]
      split
      · exact List.Sublist.refl _
      · exact List.sublist_cons_self _ _
    | some s =>
      obtain ⟨hof, hstart⟩ := segmentOf_spec htotal hseg
      obtain ⟨port, hparse, -⟩ := hof.parse
      obtain ⟨hadd, hcap⟩ := hof.next hstart htotal
      simp only [segments, hseg, List.map_cons]
      rw [List.filterMap_cons_some (b := s.pfx) (by rw [hparse]; rfl)]
      exact (ih (total + s.count) (by omega)).cons_cons _

/-- **Below the cap every valid entry has a segment with all of its pairs.** -/
theorem segments_exact (spec : Spec) (entries : List Entry) (total : Word64)
    (hexact : total.toNat + exactTotal spec entries ≤ 2 ^ 62) {entry : Entry}
    (hentry : entry ∈ entries) {p : Prefix} {port : ℕ} (hparse : entry.parse = some (p, port)) :
    ∃ s ∈ segments spec total entries, s.pfx = p ∧ s.ports = spec.portsOf port ∧
      s.count.toNat = s.hosts.toNat * s.ports.length := by
  induction entries generalizing total with
  | nil => simp at hentry
  | cons e entries ih =>
    have htotal : total.toNat ≤ 2 ^ 62 := by omega
    cases hseg : segmentOf spec total e with
    | none =>
      -- below the cap only an invalid entry adds nothing
      have hnone : e.parse = none := by
        by_contra hne
        obtain ⟨⟨q, qport⟩, hq⟩ := Option.ne_none_iff_exists'.mp hne
        obtain ⟨hpne, -, hlen⟩ := portsOf_spec spec (parse_spec hq).2
        rcases hhosts : entryHosts spec.limit q.hostBits with ⟨hosts, sampled⟩
        have hpos := (entryHosts_spec hhosts).1
        have hlenpos : 0 < (spec.portsOf qport).length := List.length_pos_iff.mpr hpne
        have hcount := @toNat_entryCount _ hosts _ htotal hlen
        simp only [exactTotal, hq, hhosts] at hexact
        simp only [segmentOf, hq, hhosts, ite_eq_left_iff, reduceCtorEq, imp_false,
          not_not] at hseg
        rw [hseg, show (0 : Word64).toNat = 0 from rfl] at hcount
        have := Nat.mul_pos hpos hlenpos
        omega
      simp only [exactTotal, hnone] at hexact
      simp only [segments, hseg]
      rcases List.mem_cons.mp hentry with rfl | hmem
      · rw [hparse] at hnone
        exact absurd hnone (by simp)
      · exact ih total hexact hmem
    | some s =>
      obtain ⟨hof, hstart⟩ := segmentOf_spec htotal hseg
      obtain ⟨qport, hq, hports⟩ := hof.parse
      have hcount := hof.count
      simp only [exactTotal, hq, hof.hosts] at hexact
      rw [hstart, hports] at hcount
      obtain ⟨hadd, -⟩ := hof.next hstart htotal
      simp only [segments, hseg]
      rcases List.mem_cons.mp hentry with rfl | hmem
      · rw [hparse, Option.some.injEq, Prod.mk.injEq] at hq
        obtain ⟨rfl, rfl⟩ := hq
        refine ⟨s, List.mem_cons_self, rfl, hports, ?_⟩
        rw [hports]
        omega
      · obtain ⟨s', hs', h⟩ := ih (total + s.count) (by omega) hmem
        exact ⟨s', List.mem_cons_of_mem _ hs', h⟩

end Throned.Scan
