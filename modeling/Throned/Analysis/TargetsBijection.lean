import Throned.Analysis.TargetLayout

/-!
# Distinct positions give distinct targets

The enumeration of a spec as a whole.  `lookup_spec` finds the segment of a position,
`at_eq_lookup` reduces `At` to the unshuffled lookup behind a permutation of the
positions, and `targets_at_bijective` is the result: for pairwise disjoint prefixes no
(address, port) comes twice, every one belongs to an entry, and without sampling and
saturation all of them come.
-/

set_option autoImplicit false

namespace Throned.Scan

open Throned.Library

/-- The segments of a spec. -/
def Spec.segments (spec : Spec) : List Segment := Scan.segments spec 0 spec.entries

/-- The pairs of a host and a port of one valid entry. -/
def Spec.hostPorts (spec : Spec) : Set Target :=
  {x | ∃ entry ∈ spec.entries, ∃ p port, entry.parse = some (p, port) ∧ x.addr ∈ p.hosts ∧
    x.port ∈ spec.portsOf port}

/-- The cap cut some of the pairs off. -/
def Spec.Saturated (spec : Spec) : Prop := maxTargetTotal.toNat < exactTotal spec spec.entries

instance (spec : Spec) : Decidable spec.Saturated := inferInstanceAs (Decidable (_ < _))

/-- Drawing the order leaves the layout alone. -/
theorem newTargets_layout (spec : Spec) :
    (newTargets spec).ranges = spec.segments.map (·.range spec.seed) ∧
      (newTargets spec).total = totalAfter spec 0 spec.entries ∧
      (newTargets spec).sampledEntries = spec.segments.countP (·.sampled) :=
  layRanges_eq spec

/-- Drawing the order gives a mixer as wide as the total. -/
theorem newTargets_order (spec : Spec) (h : 1 < (newTargets spec).total.toNat) :
    MixesWidth (newTargets spec).order (len64 ((newTargets spec).total - 1)) := by
  have htotal : (newTargets spec).total = (layRanges spec).total := rfl
  rw [htotal] at h ⊢
  have hgt : (layRanges spec).total > 1 := h
  have horder : (newTargets spec).order =
      newMixer (len64 ((layRanges spec).total - 1)) spec.seed := if_pos hgt
  obtain ⟨hpos, hle, -⟩ := len64_pred h
  rw [horder]
  exact newMixer_mixesWidth hpos hle _

/-- A total below the cap is not saturated: it counts every pair. -/
theorem not_saturated_iff (spec : Spec) :
    ¬ spec.Saturated ↔ (newTargets spec).total.toNat = exactTotal spec spec.entries := by
  have h := toNat_totalAfter spec spec.entries 0 (Nat.zero_le _)
  rw [← (newTargets_layout spec).2.1, show (0 : Word64).toNat = 0 from rfl] at h
  unfold Spec.Saturated
  rw [toNat_maxTargetTotal]
  omega

theorem spec_tiles (spec : Spec) :
    Tiles (fun s : Segment => s.start.toNat) (fun s => s.count.toNat) 0 spec.segments
      (newTargets spec).total.toNat := by
  rw [(newTargets_layout spec).2.1]
  exact (segments_tiles spec spec.entries 0 (Nat.zero_le _)).1

theorem segment_of_mem {spec : Spec} {s : Segment} (hs : s ∈ spec.segments) :
    ∃ entry ∈ spec.entries, s.Of spec entry :=
  segments_of spec spec.entries 0 (Nat.zero_le _) hs

/-- **The lookup finds the segment of a position.** -/
theorem lookup_spec (spec : Spec) {g : Word64} (hg : g ∈ positions (newTargets spec).total) :
    ∃ i, ∃ hi : i < spec.segments.length,
      spec.segments[i].start.toNat ≤ g.toNat ∧
      g.toNat < spec.segments[i].start.toNat + spec.segments[i].count.toNat ∧
      (newTargets spec).lookup g =
        (spec.segments[i].range spec.seed).target (g - spec.segments[i].start) := by
  have hranges := (newTargets_layout spec).1
  have hlen : (newTargets spec).ranges.length = spec.segments.length := by
    rw [hranges, List.length_map]
  have hget : ∀ i (hi : i < spec.segments.length),
      (newTargets spec).ranges[i]? = some (spec.segments[i].range spec.seed) := by
    intro i hi
    rw [hranges, List.getElem?_map, List.getElem?_eq_getElem hi]
    rfl
  obtain ⟨i, hi, hfound, hstart, hend⟩ := search_tiles (spec_tiles spec) (Nat.zero_le _)
    (mem_positions.mp hg) (f := (newTargets spec).startsAfter g)
    (fun i hi => by simp only [Targets.startsAfter, hget i hi]; rfl)
  refine ⟨i, hi, hstart, hend, ?_⟩
  unfold Targets.lookup
  dsimp only
  rw [hlen, hfound, if_neg (by omega), Nat.add_sub_cancel, hget i hi]
  rfl

/-- The place of a position within its segment. -/
theorem place_lt {spec : Spec} {entry : Entry} {s : Segment} {g : Word64} (hs : s.Of spec entry)
    (hstart : s.start.toNat ≤ g.toNat) (hend : g.toNat < s.start.toNat + s.count.toNat) :
    (g - s.start).toNat = g.toNat - s.start.toNat ∧
      (g - s.start).toNat < s.hosts.toNat * (s.range spec.seed).ports.length := by
  have hle := count_le hs
  have hsub : (g - s.start).toNat = g.toNat - s.start.toNat :=
    BitVec.toNat_sub_of_le (BitVec.le_def.mpr hstart)
  refine ⟨hsub, ?_⟩
  rw [hsub]
  exact lt_of_lt_of_le (by omega) hle

/-- Every position has a target, and it belongs to the entry of the position's segment. -/
theorem lookup_mem (spec : Spec) {g : Word64} (hg : g ∈ positions (newTargets spec).total) :
    ∃ x ∈ spec.hostPorts, (newTargets spec).lookup g = some x := by
  obtain ⟨i, hi, hstart, hend, hlookup⟩ := lookup_spec spec hg
  obtain ⟨entry, hentry, hof⟩ := segment_of_mem (List.getElem_mem hi)
  obtain ⟨x, htarget, haddr, hport⟩ :=
    range_target_spec hof.rangeOf (place_lt hof hstart hend).2
  obtain ⟨port, hparse, hports⟩ := hof.parse
  refine ⟨x, ⟨entry, hentry, _, port, hparse, haddr, ?_⟩, by rw [hlookup, htarget]⟩
  rw [← hports]
  exact hport

/-- **Disjoint prefixes keep the lookup injective**: two positions with one target lie in
one segment, at one place. -/
theorem lookup_injOn (spec : Spec) (hdisj : spec.validPrefixes.Pairwise Prefix.Disjoint) :
    Set.InjOn (newTargets spec).lookup (positions (newTargets spec).total) := by
  have hpairwise : (spec.segments.map Segment.pfx).Pairwise Prefix.Disjoint :=
    hdisj.sublist (segments_sublist spec spec.entries 0 (Nat.zero_le _))
  have happart : ∀ i j (hi : i < spec.segments.length) (hj : j < spec.segments.length), i < j →
      (spec.segments[i].pfx).Disjoint spec.segments[j].pfx := by
    intro i j hi hj hij
    have := List.pairwise_iff_getElem.mp hpairwise i j (by simpa using hi) (by simpa using hj) hij
    simpa using this
  intro g hg g' hg' heq
  obtain ⟨i, hi, hstart, hend, hlookup⟩ := lookup_spec spec hg
  obtain ⟨j, hj, hstart', hend', hlookup'⟩ := lookup_spec spec hg'
  obtain ⟨entry, -, hof⟩ := segment_of_mem (List.getElem_mem hi)
  obtain ⟨entry', -, hof'⟩ := segment_of_mem (List.getElem_mem hj)
  obtain ⟨hsub, hplace⟩ := place_lt hof hstart hend
  obtain ⟨hsub', hplace'⟩ := place_lt hof' hstart' hend'
  rw [hlookup, hlookup'] at heq
  obtain ⟨x, htarget, haddr, -⟩ := range_target_spec hof.rangeOf hplace
  obtain ⟨x', htarget', haddr', -⟩ := range_target_spec hof'.rangeOf hplace'
  have hx : x = x' := by
    rw [htarget, htarget'] at heq
    exact Option.some.inj heq
  subst hx
  rcases Nat.lt_trichotomy i j with hlt | rfl | hgt
  · exact absurd haddr' (happart i j hi hj hlt _ haddr)
  · have := range_target_injOn hof.rangeOf hplace hplace' heq
    have hnat := congrArg BitVec.toNat this
    exact BitVec.eq_of_toNat_eq (by omega)
  · exact absurd haddr (happart j i hj hi hgt _ haddr')

/-- **Without sampling and below the cap every pair is reached.** -/
theorem lookup_surjOn (spec : Spec) (hsampled : (newTargets spec).sampledEntries = 0)
    (hsat : ¬ spec.Saturated) {x : Target} (hx : x ∈ spec.hostPorts) :
    ∃ g ∈ positions (newTargets spec).total, (newTargets spec).lookup g = some x := by
  obtain ⟨entry, hentry, p, port, hparse, haddr, hport⟩ := hx
  have hexact : (0 : Word64).toNat + exactTotal spec spec.entries ≤ 2 ^ 62 := by
    have := Nat.le_of_not_lt hsat
    rw [toNat_maxTargetTotal] at this
    simpa using this
  obtain ⟨s, hs, rfl, hports, hcount⟩ : ∃ s ∈ spec.segments, s.pfx = p ∧
      s.ports = spec.portsOf port ∧ s.count.toNat = s.hosts.toNat * s.ports.length :=
    segments_exact spec spec.entries 0 hexact hentry hparse
  obtain ⟨e, -, hof⟩ := segment_of_mem hs
  have hall : s.sampled = false := by
    have hzero : spec.segments.countP (·.sampled) = 0 := by
      rw [← (newTargets_layout spec).2.2]
      exact hsampled
    have := List.countP_eq_zero.mp hzero s hs
    simpa using this
  have hsmall : s.hosts.toNat * s.ports.length ≤ 2 ^ 64 := by
    rw [← hcount]
    exact s.count.isLt.le
  obtain ⟨loc, hloc, htarget⟩ :=
    range_target_surjOn hof.rangeOf hall hsmall haddr
      (show x.port ∈ s.ports by rw [hports]; exact hport)
  -- the place `loc` of the segment is the position `s.start + loc`
  have hbounds := (spec_tiles spec).mem_bounds hs
  have hloc' : loc.toNat < s.count.toNat := by
    rw [hcount]
    exact hloc
  have htotal := (newTargets spec).total.isLt
  have hadd : (s.start + loc).toNat = s.start.toNat + loc.toNat := by
    rw [BitVec.toNat_add, Nat.mod_eq_of_lt (by omega)]
  refine ⟨s.start + loc, mem_positions.mpr (by omega), ?_⟩
  obtain ⟨i, hi, hstart, hend, hlookup⟩ :=
    lookup_spec spec (g := s.start + loc) (mem_positions.mpr (by omega))
  have hsi : spec.segments[i] = s := by
    obtain ⟨j, hj, hsj⟩ := List.getElem_of_mem hs
    subst hsj
    have hij := (spec_tiles spec).index_unique hi hj hstart hend (by omega) (by omega)
    subst hij
    rfl
  rw [hlookup, hsi, ← htarget]
  congr 1
  apply BitVec.eq_of_toNat_eq
  rw [BitVec.toNat_sub_of_le (BitVec.le_def.mpr (by omega)), hadd, Nat.add_sub_cancel_left]

/-- `At` is the lookup behind a permutation of the positions, shuffled or not. -/
theorem at_eq_lookup (spec : Spec) :
    ∃ order : Word64 → Word64,
      Set.BijOn order (positions (newTargets spec).total) (positions (newTargets spec).total) ∧
      ∀ p ∈ positions (newTargets spec).total,
        (newTargets spec).at' p = (newTargets spec).lookup (order p) := by
  cases hs : (newTargets spec).shuffle with
  | false =>
    refine ⟨id, Set.bijOn_id _, fun p _ => ?_⟩
    simp only [Targets.at', hs, Bool.false_eq_true, if_false, id]
  | true =>
    obtain ⟨order, hpermute, hbij⟩ := permute_bijOn (newTargets spec) (newTargets_order spec)
    refine ⟨order, hbij, fun p hp => ?_⟩
    simp only [Targets.at', hs, if_true, hpermute p hp, Option.bind_some]

theorem lookup_congr {t t' : Targets} (h : t.ranges = t'.ranges) : t.lookup = t'.lookup := by
  have hstarts : t.startsAfter = t'.startsAfter := by
    funext g i
    unfold Targets.startsAfter
    rw [h]
  funext g
  unfold Targets.lookup
  rw [hstarts, h]

/-- The shuffle flag changes neither the total nor the unshuffled order. -/
theorem lookup_shuffle (spec : Spec) (shuffle : Bool) :
    (newTargets { spec with shuffle := shuffle }).total = (newTargets spec).total ∧
      (newTargets { spec with shuffle := shuffle }).lookup = (newTargets spec).lookup := by
  have hsegments : ∀ (entries : List Entry) (total : Word64),
      Scan.segments { spec with shuffle := shuffle } total entries =
          Scan.segments spec total entries ∧
        totalAfter { spec with shuffle := shuffle } total entries =
          totalAfter spec total entries := by
    intro entries
    induction entries with
    | nil => exact fun _ => ⟨rfl, rfl⟩
    | cons entry entries ih =>
      intro total
      have hseg : segmentOf { spec with shuffle := shuffle } total entry =
          segmentOf spec total entry := rfl
      simp only [Scan.segments, totalAfter, hseg]
      split
      · exact ih total
      · rename_i s _
        obtain ⟨h1, h2⟩ := ih (total + s.count)
        exact ⟨by rw [h1], h2⟩
  obtain ⟨hsegs, htotal⟩ := hsegments spec.entries 0
  have hranges : (newTargets { spec with shuffle := shuffle }).ranges =
      (newTargets spec).ranges := by
    rw [(newTargets_layout spec).1, (newTargets_layout _).1, Spec.segments, Spec.segments, hsegs]
  exact ⟨by rw [(newTargets_layout spec).2.1, (newTargets_layout _).2.1, htotal],
    lookup_congr hranges⟩

/-- The targets `At` reaches are those of the lookup. -/
theorem at_image (spec : Spec) :
    Set.image (newTargets spec).at' (positions (newTargets spec).total) =
      (newTargets spec).lookup '' positions (newTargets spec).total := by
  obtain ⟨order, hbij, heq⟩ := at_eq_lookup spec
  rw [Set.image_congr heq, ← Set.image_image (newTargets spec).lookup order, hbij.image_eq]

/-- Every position below the total has a target. -/
theorem at_mem (spec : Spec) {p : Word64} (hp : p ∈ positions (newTargets spec).total) :
    ∃ x ∈ spec.hostPorts, (newTargets spec).at' p = some x := by
  obtain ⟨order, hbij, heq⟩ := at_eq_lookup spec
  rw [heq p hp]
  exact lookup_mem spec (hbij.mapsTo hp)

/-- **`Targets.At` enumerates the targets of a spec without repetition.**  For pairwise
disjoint normalized prefixes, whatever the shuffle flag, seed, port mode, ports and
sample size: every position below the total has a target, a host of an entry with one of
that entry's ports; no two positions share one; without a sampled entry and below the
cap all pairs of a host and a port are reached; and the shuffled and the unshuffled order
reach the same targets. -/
theorem targets_at_bijective (spec : Spec)
    (hdisj : spec.validPrefixes.Pairwise Prefix.Disjoint) :
    (∀ p ∈ positions (newTargets spec).total,
        ∃ x ∈ spec.hostPorts, (newTargets spec).at' p = some x) ∧
      Set.InjOn (newTargets spec).at' (positions (newTargets spec).total) ∧
      ((newTargets spec).sampledEntries = 0 → ¬ spec.Saturated →
        Set.BijOn (newTargets spec).at' (positions (newTargets spec).total)
          (some '' spec.hostPorts)) ∧
      ∀ shuffle : Bool,
        Set.image (newTargets { spec with shuffle }).at'
            (positions (newTargets { spec with shuffle }).total) =
          Set.image (newTargets spec).at' (positions (newTargets spec).total) := by
  obtain ⟨order, hbij, heq⟩ := at_eq_lookup spec
  have hinj : Set.InjOn (newTargets spec).at' (positions (newTargets spec).total) := by
    intro p hp q hq hpq
    rw [heq p hp, heq q hq] at hpq
    exact hbij.injOn hp hq (lookup_injOn spec hdisj (hbij.mapsTo hp) (hbij.mapsTo hq) hpq)
  refine ⟨fun _ => at_mem spec, hinj, fun hsampled hsat => ⟨?_, hinj, ?_⟩, fun shuffle => ?_⟩
  · intro p hp
    obtain ⟨x, hx, hat⟩ := at_mem spec hp
    exact ⟨x, hx, hat.symm⟩
  · rintro _ ⟨x, hx, rfl⟩
    rw [at_image]
    obtain ⟨g, hg, hlookup⟩ := lookup_surjOn spec hsampled hsat hx
    exact ⟨g, hg, hlookup⟩
  · obtain ⟨htotal, hlookup⟩ := lookup_shuffle spec shuffle
    rw [at_image, at_image, htotal, hlookup]

/-- Three entries of both families, shuffled. -/
def sampleSpec : Spec where
  entries := [⟨"10.0.0.0/30".toList, 0⟩, ⟨"192.168.1.7".toList, 8443⟩,
    ⟨"2001:db8::/126".toList, 0⟩]
  defaultPorts := [443, 80, 443]
  portMode := ""
  maxHostsPerEntry := 0
  shuffle := true
  seed := 42

theorem targets_at_bijective_sample :
    Set.BijOn (newTargets sampleSpec).at' (positions (newTargets sampleSpec).total)
      (some '' sampleSpec.hostPorts) := by
  have hprefixes : sampleSpec.validPrefixes =
      [⟨.v4 0x0a000000, 30, by decide⟩, ⟨.v4 0xc0a80107, 32, by decide⟩,
        ⟨.v6 0x20010db800000000 0, 126, by decide⟩] := by decide
  refine (targets_at_bijective sampleSpec ?_).2.2.1 (by decide) (by decide)
  rw [hprefixes, List.pairwise_cons, List.pairwise_pair]
  refine ⟨fun q hq => ?_, Prefix.disjoint_of_is4_ne (by decide)⟩
  rcases List.mem_pair.mp hq with rfl | rfl
  · exact Prefix.disjoint_of_div_ne (h := 2) (by decide) (by decide) (by decide)
  · exact Prefix.disjoint_of_is4_ne (by decide)

end Throned.Scan
