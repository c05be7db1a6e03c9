import Mathlib.Algebra.Order.Monoid.Prod
import Mathlib.Algebra.Order.Group.Int
import Mathlib.Order.Lattice
import Throned.Library.Actors
import Throned.Library.Runs
import Throned.Model.SpeedTests

/-!
# The counters that reach the books

A meter is what one probe shows of one profile under one tag.  The audit follows the calls of
`creditTraffic`: it keeps the highest counters a meter has shown, and those its final answer gave.
Whatever the timing, no late tick shows more than the final answer.
-/

set_option autoImplicit false

namespace Throned.Engine.Tests

open Throned.Library

/-- The generation of a probe, a tag and a profile. -/
abbrev Meter := ℕ × Text × ℤ

structure Audit where
  shown : Ledger Meter Bytes := .empty
  reported : Ledger Meter Bytes := .empty

namespace SpeedTests

/-- The call of `creditTraffic` in a step. -/
def creditCall (s : SpeedTests) : Event → Option (Meter × Bytes)
  | .creditTick k =>
    match s.pollers[k]? with
    | some p =>
      match p.tick with
      | .checked profile tag cur => some ((p.gen, tag, profile), cur)
      | _ => none
    | none => none
  | .creditResult =>
    match s.worker with
    | .answered target ((tag, cur) :: _) _ =>
      (s.resultProfile target tag).map fun ent => ((s.sessionGen, tag, ent), cur)
    | _ => none
  | _ => none

/-- The audit after a step. -/
def observe (s : SpeedTests) (a : Audit) (ev : Event) : Audit :=
  match s.creditCall ev with
  | none => a
  | some (meter, cur) =>
    let seen := a.shown.amount meter
    { shown := a.shown.add meter (cur ⊔ seen - seen)
      reported := if ev = .creditResult then a.reported.add meter cur else a.reported }

def auditedStep (x : SpeedTests × Audit) (ev : Event) : SpeedTests × Audit :=
  (x.1.step ev, x.1.observe x.2 ev)

end SpeedTests

/-- A probe is under way, or its answer is. -/
def SpeedWorker.probes : SpeedWorker → Bool
  | .probing _ _ => true
  | .answered _ _ _ => true
  | _ => false

/-- The counters a tick carries. -/
def Tick.Carries (tick : Tick) (tag : Text) (cur : Bytes) : Prop :=
  tick = .replied tag cur ∨ ∃ profile, tick = .checked profile tag cur

theorem Tick.not_carries_idle {tag : Text} {cur : Bytes} : ¬ Tick.idle.Carries tag cur := by
  simp [Carries]

namespace SpeedTests

variable {s : SpeedTests} {a : Audit}

theorem observe_of_none {ev : Event} (h : s.creditCall ev = none) : s.observe a ev = a := by
  unfold observe
  rw [h]

theorem observe_of_some {ev : Event} {m : Meter} {cur : Bytes}
    (h : s.creditCall ev = some (m, cur)) :
    s.observe a ev =
      { shown := a.shown.add m (cur ⊔ a.shown.amount m - a.shown.amount m)
        reported := if ev = .creditResult then a.reported.add m cur else a.reported } := by
  unfold observe
  rw [h]

/-! ## What the steps that credit do -/

inductive CreditTickCases (s : SpeedTests) (k : ℕ) : Prop where
  | credit {p : SpeedPoller} {profile : ℤ} {tag : Text} {cur : Bytes}
      (hp : s.pollers[k]? = some p) (htick : p.tick = .checked profile tag cur)
      (hcall : s.creditCall (.creditTick k) = some ((p.gen, tag, profile), cur))
      (hstep : s.creditTick k = (s.setTick k p .idle).creditTraffic profile tag cur)
  | none (hcall : s.creditCall (.creditTick k) = none) (hstep : s.creditTick k = s)

theorem creditTick_cases (s : SpeedTests) (k : ℕ) : s.CreditTickCases k := by
  cases hp : s.pollers[k]? with
  | none => exact .none (by simp only [creditCall, hp]) (by simp only [creditTick, hp])
  | some p =>
    cases htick : p.tick with
    | checked profile tag cur =>
      exact .credit hp htick (by simp only [creditCall, hp, htick])
        (by simp only [creditTick, hp, htick])
    | idle =>
      exact .none (by simp only [creditCall, hp, htick]) (by simp only [creditTick, hp, htick])
    | replied tag cur =>
      exact .none (by simp only [creditCall, hp, htick]) (by simp only [creditTick, hp, htick])

inductive CreditResultCases (s : SpeedTests) : Prop where
  | credit {target : Target} {tag : Text} {cur : Bytes} {results : List (Text × Bytes)}
      {targets : List Target} {ent : ℤ}
      (hw : s.worker = .answered target ((tag, cur) :: results) targets)
      (hprofile : s.resultProfile target tag = some ent)
      (hcall : s.creditCall .creditResult = some ((s.sessionGen, tag, ent), cur))
      (hstep : s.creditResult =
        SpeedTests.creditTraffic { s with worker := .answered target results targets } ent tag cur)
  /-- The profile of the result is not found. -/
  | skip {target : Target} {r : Text × Bytes} {results : List (Text × Bytes)}
      {targets : List Target} (hw : s.worker = .answered target (r :: results) targets)
      (hcall : s.creditCall .creditResult = none)
      (hstep : s.creditResult = { s with worker := .answered target results targets })
  | last {target : Target} {targets : List Target} (hw : s.worker = .answered target [] targets)
      (hcall : s.creditCall .creditResult = none)
      (hstep : s.creditResult = { s with worker := .sweeping targets })
  | none (hcall : s.creditCall .creditResult = none) (hstep : s.creditResult = s)

theorem creditResult_cases (s : SpeedTests) : s.CreditResultCases := by
  cases hw : s.worker with
  | answered target results targets =>
    cases results with
    | nil =>
      exact .last hw (by simp only [creditCall, hw]) (by simp only [creditResult, hw])
    | cons r results =>
      obtain ⟨tag, cur⟩ := r
      have hprofile : ({ s with worker := .answered target results targets } :
          SpeedTests).resultProfile target tag = s.resultProfile target tag := rfl
      cases hent : s.resultProfile target tag with
      | none =>
        exact .skip hw (by simp only [creditCall, hw, hent, Option.map_none])
          (by simp only [creditResult, hw, hprofile, hent])
      | some ent =>
        exact .credit hw hent (by simp only [creditCall, hw, hent, Option.map_some])
          (by simp only [creditResult, hw, hprofile, hent])
  | idle => exact .none (by simp only [creditCall, hw]) (by simp only [creditResult, hw])
  | starting targets =>
    exact .none (by simp only [creditCall, hw]) (by simp only [creditResult, hw])
  | sweeping targets =>
    exact .none (by simp only [creditCall, hw]) (by simp only [creditResult, hw])
  | probing target targets =>
    exact .none (by simp only [creditCall, hw]) (by simp only [creditResult, hw])

/-! ## What a credit leaves alone -/

section Frame

variable (s) (profile : ℤ) (tag : Text) (cur : Bytes)

@[simp] theorem creditTraffic_worker : (s.creditTraffic profile tag cur).worker = s.worker := by
  dsimp only [creditTraffic]
  split_ifs <;> rfl

@[simp] theorem creditTraffic_pollers : (s.creditTraffic profile tag cur).pollers = s.pollers := by
  dsimp only [creditTraffic]
  split_ifs <;> rfl

@[simp] theorem creditTraffic_sessionGen :
    (s.creditTraffic profile tag cur).sessionGen = s.sessionGen := by
  dsimp only [creditTraffic]
  split_ifs <;> rfl

@[simp] theorem creditTraffic_counters :
    (s.creditTraffic profile tag cur).counters = s.counters := by
  dsimp only [creditTraffic]
  split_ifs <;> rfl

end Frame

/-! ## Late ticks show nothing new -/

/-- No meter of the probe under way, or a tick of it, is ahead of the core; the final answers are
what their meters have shown, and the ticks of older probes are not ahead of them. -/
structure Counting (s : SpeedTests) (a : Audit) : Prop where
  nonneg : ∀ tag, 0 ≤ s.counters tag
  gens : ∀ p ∈ s.pollers, p.gen ≤ s.sessionGen
  fresh : ∀ m ∈ a.shown.keys, m.1 ≤ s.sessionGen
  shown : ∀ m ∈ a.reported.keys, m ∈ a.shown.keys
  below : ∀ tag profile, a.shown.amount (s.sessionGen, tag, profile) ≤ s.counters tag
  current : ∀ p ∈ s.pollers, ∀ tag cur, p.tick.Carries tag cur → p.gen = s.sessionGen →
    cur ≤ s.counters tag
  carried : ∀ p ∈ s.pollers, ∀ tag cur, p.tick.Carries tag cur → 0 ≤ cur
  late : ∀ p ∈ s.pollers, ∀ tag cur, p.tick.Carries tag cur → ∀ profile,
    (p.gen, tag, profile) ∈ a.reported.keys → cur ≤ a.shown.amount (p.gen, tag, profile)
  settled : ∀ m ∈ a.reported.keys, a.shown.amount m = a.reported.amount m
  probing : ∀ target targets, s.worker = .probing target targets →
    ∀ m ∈ a.reported.keys, m.1 ≠ s.sessionGen
  counted : ∀ target results targets, s.worker = .answered target results targets →
    ∀ r ∈ results, r.2 = s.counters r.1
  distinct : ∀ target results targets, s.worker = .answered target results targets →
    (results.map Prod.fst).Nodup
  pending : ∀ target results targets, s.worker = .answered target results targets →
    ∀ m ∈ a.reported.keys, m.1 = s.sessionGen → m.2.1 ∉ results.map Prod.fst

/-- A meter that was never credited has shown nothing. -/
theorem Counting.amount_of_lt (h : s.Counting a) {m : Meter} (hm : s.sessionGen < m.1) :
    a.shown.amount m = 0 :=
  Ledger.amount_of_not_mem fun hmem => absurd (h.fresh m hmem) (not_le.mpr hm)

/-- A new generation, without a poller or with one, and from new counters or the old ones. -/
theorem Counting.newGen (h : s.Counting a) {t : SpeedTests}
    (hgen : t.sessionGen = s.sessionGen + 1) (hnonneg : ∀ tag, 0 ≤ t.counters tag)
    (hpollers : ∀ p ∈ t.pollers, p ∈ s.pollers ∨ (p.gen = t.sessionGen ∧ p.tick = .idle))
    (hworker : ∀ target results targets, t.worker ≠ .answered target results targets) :
    t.Counting a where
  nonneg := hnonneg
  gens p hp := by
    obtain hp | ⟨hp, -⟩ := hpollers p hp
    · have := h.gens p hp
      omega
    · exact hp.le
  fresh m hm := by
    have := h.fresh m hm
    omega
  shown := h.shown
  below tag profile := by
    rw [h.amount_of_lt (by dsimp only; omega)]
    exact hnonneg tag
  current p hp tag cur hcur hcurrent := by
    obtain hp | ⟨-, hp⟩ := hpollers p hp
    · have := h.gens p hp
      omega
    · rw [hp] at hcur
      exact absurd hcur Tick.not_carries_idle
  carried p hp tag cur hcur := by
    obtain hp | ⟨-, hp⟩ := hpollers p hp
    · exact h.carried p hp tag cur hcur
    · rw [hp] at hcur
      exact absurd hcur Tick.not_carries_idle
  late p hp tag cur hcur := by
    obtain hp | ⟨-, hp⟩ := hpollers p hp
    · exact h.late p hp tag cur hcur
    · rw [hp] at hcur
      exact absurd hcur Tick.not_carries_idle
  settled := h.settled
  probing target targets _ m hm := by
    have := h.fresh m (h.shown m hm)
    omega
  counted target results targets hw := absurd hw (hworker target results targets)
  distinct target results targets hw := absurd hw (hworker target results targets)
  pending target results targets hw := absurd hw (hworker target results targets)

/-- A step that keeps the generation and the counters and asks nothing new of a tick. -/
theorem Counting.quiet (h : s.Counting a) {t : SpeedTests} (hgen : t.sessionGen = s.sessionGen)
    (hcounters : t.counters = s.counters)
    (hpollers : ∀ p ∈ t.pollers, ∃ q ∈ s.pollers, p.gen = q.gen ∧
      ∀ tag cur, p.tick.Carries tag cur → q.tick.Carries tag cur ∨
        (p.gen = s.sessionGen ∧ cur = s.counters tag ∧ ∀ m ∈ a.reported.keys, m.1 ≠ s.sessionGen))
    (hworker : t.worker = s.worker ∨ t.worker.probes = false) :
    t.Counting a where
  nonneg tag := by
    rw [hcounters]
    exact h.nonneg tag
  gens p hp := by
    obtain ⟨q, hq, heq, -⟩ := hpollers p hp
    rw [heq, hgen]
    exact h.gens q hq
  fresh m hm := by
    rw [hgen]
    exact h.fresh m hm
  shown := h.shown
  below tag profile := by
    rw [hgen, hcounters]
    exact h.below tag profile
  current p hp tag cur hcur hcurrent := by
    obtain ⟨q, hq, heq, hcarries⟩ := hpollers p hp
    rw [hcounters]
    obtain hold | ⟨-, hnew, -⟩ := hcarries tag cur hcur
    · exact h.current q hq tag cur hold (by rw [← heq, hcurrent, hgen])
    · exact hnew.le
  carried p hp tag cur hcur := by
    obtain ⟨q, hq, -, hcarries⟩ := hpollers p hp
    obtain hold | ⟨-, rfl, -⟩ := hcarries tag cur hcur
    · exact h.carried q hq tag cur hold
    · exact h.nonneg tag
  late p hp tag cur hcur profile hreported := by
    obtain ⟨q, hq, heq, hcarries⟩ := hpollers p hp
    obtain hold | ⟨hnow, -, hnone⟩ := hcarries tag cur hcur
    · rw [heq] at hreported ⊢
      exact h.late q hq tag cur hold profile hreported
    · exact absurd hnow (hnone _ hreported)
  settled := h.settled
  probing target targets hw := by
    obtain hsame | hnot := hworker
    · rw [hgen]
      exact h.probing target targets (hsame ▸ hw)
    · rw [hw] at hnot
      cases hnot
  counted target results targets hw := by
    obtain hsame | hnot := hworker
    · rw [hcounters]
      exact h.counted target results targets (hsame ▸ hw)
    · rw [hw] at hnot
      cases hnot
  distinct target results targets hw := by
    obtain hsame | hnot := hworker
    · exact h.distinct target results targets (hsame ▸ hw)
    · rw [hw] at hnot
      cases hnot
  pending target results targets hw := by
    obtain hsame | hnot := hworker
    · rw [hgen]
      exact h.pending target results targets (hsame ▸ hw)
    · rw [hw] at hnot
      cases hnot

/-- A tick of a poller is set, to nothing or to what it carried. -/
theorem Counting.setTick (h : s.Counting a) {k : ℕ} {p : SpeedPoller} (hp : s.pollers[k]? = some p)
    {tick : Tick} (htick : ∀ tag cur, tick.Carries tag cur → p.tick.Carries tag cur ∨
      (p.gen = s.sessionGen ∧ cur = s.counters tag ∧ ∀ m ∈ a.reported.keys, m.1 ≠ s.sessionGen)) :
    (s.setTick k p tick).Counting a := by
  refine h.quiet rfl rfl (fun q hq => ?_) (.inl rfl)
  obtain hq | rfl := List.mem_or_eq_of_mem_set hq
  · exact ⟨q, hq, rfl, fun tag cur hcur => .inl hcur⟩
  · exact ⟨p, List.mem_of_getElem? hp, rfl, htick⟩

/-- The core moves bytes. -/
theorem Counting.moveBytes (h : s.Counting a) (tag : Text) (up down : ℕ) :
    (s.moveBytes tag up down).Counting a := by
  unfold SpeedTests.moveBytes
  split
  · rename_i target targets hw
    have hle : ∀ other, s.counters other ≤
        Function.update s.counters tag (s.counters tag + ((up : ℤ), (down : ℤ))) other := by
      intro other
      obtain rfl | hne := eq_or_ne other tag
      · rw [Function.update_self]
        refine le_add_of_nonneg_right (Prod.mk_le_mk.mpr ⟨?_, ?_⟩)
        · exact Int.natCast_nonneg up
        · exact Int.natCast_nonneg down
      · rw [Function.update_of_ne hne]
    have hnot : ∀ target' results targets',
        s.worker ≠ .answered target' results targets' := by
      intro target' results targets'
      rw [hw]
      exact SpeedWorker.noConfusion
    exact
      { nonneg := fun other => (h.nonneg other).trans (hle other)
        gens := h.gens
        fresh := h.fresh
        shown := h.shown
        below := fun other profile => (h.below other profile).trans (hle other)
        current := fun p hp other cur hcur hcurrent =>
          (h.current p hp other cur hcur hcurrent).trans (hle other)
        carried := h.carried
        late := h.late
        settled := h.settled
        probing := h.probing
        counted := fun target' results targets' hw' => absurd hw' (hnot target' results targets')
        distinct := fun target' results targets' hw' => absurd hw' (hnot target' results targets')
        pending := fun target' results targets' hw' => absurd hw' (hnot target' results targets') }
  · exact h

/-- The session asks nothing, or its probe is over. -/
theorem Counting.between (h : s.Counting a) {t : SpeedTests} (hgen : t.sessionGen = s.sessionGen)
    (hcounters : t.counters = s.counters)
    (hpollers : ∀ p ∈ t.pollers, ∃ q ∈ s.pollers, p.gen = q.gen ∧ p.tick = q.tick)
    (hworker : t.worker = s.worker ∨ t.worker.probes = false) :
    t.Counting a := by
  refine h.quiet hgen hcounters (fun p hp => ?_) hworker
  obtain ⟨q, hq, heq, htick⟩ := hpollers p hp
  exact ⟨q, hq, heq, fun tag cur hcur => .inl (htick ▸ hcur)⟩

theorem mem_stopPoller {p : SpeedPoller} (hp : p ∈ s.stopPoller.pollers) :
    ∃ q ∈ s.pollers, p.gen = q.gen ∧ p.tick = q.tick := by
  obtain ⟨q, hq, rfl⟩ := List.mem_map.mp hp
  refine ⟨q, hq, ?_⟩
  split <;> exact ⟨rfl, rfl⟩

/-- The probe is answered. -/
theorem Counting.answer (h : s.Counting a) (tags : List Text) : (s.answer tags).Counting a := by
  unfold SpeedTests.answer
  split
  · rename_i target targets hw
    split
    · rename_i hnodup
      have hnone := h.probing target targets hw
      have hstop : s.stopPoller.Counting a :=
        h.between rfl rfl (fun p hp => mem_stopPoller hp) (.inl rfl)
      exact
        { nonneg := h.nonneg
          gens := hstop.gens
          fresh := h.fresh
          shown := h.shown
          below := h.below
          current := hstop.current
          carried := hstop.carried
          late := hstop.late
          settled := h.settled
          probing := fun _ _ hw' => nomatch hw'
          counted := by
            rintro _ _ _ ⟨⟩ r hr
            obtain ⟨tag, -, rfl⟩ := List.mem_map.mp hr
            rfl
          distinct := by
            rintro _ _ _ ⟨⟩
            rw [List.map_map]
            exact (List.map_id tags).symm ▸ hnodup
          pending := fun _ _ _ _ m hm hcurrent => absurd hcurrent (hnone m hm) }
    · exact h
  · exact h

/-- The next result of the answer is taken. -/
theorem Counting.pop (h : s.Counting a) {target : Target} {r : Text × Bytes}
    {results : List (Text × Bytes)} {targets : List Target}
    (hw : s.worker = .answered target (r :: results) targets) :
    Counting { s with worker := .answered target results targets } a where
  nonneg := h.nonneg
  gens := h.gens
  fresh := h.fresh
  shown := h.shown
  below := h.below
  current := h.current
  carried := h.carried
  late := h.late
  settled := h.settled
  probing _ _ hw' := nomatch hw'
  counted := by
    rintro _ _ _ ⟨⟩ r' hr'
    exact h.counted _ _ _ hw r' (List.mem_cons_of_mem _ hr')
  distinct := by
    rintro _ _ _ ⟨⟩
    exact (List.nodup_cons.mp (h.distinct _ _ _ hw)).2
  pending := by
    rintro _ _ _ ⟨⟩ m hm hcurrent hmem
    exact h.pending _ _ _ hw m hm hcurrent (List.mem_cons_of_mem _ hmem)

/-! ## A credit -/

/-- The highest counters of a meter after a credit to `m`. -/
theorem amount_raise (shown : Ledger Meter Bytes) (m m' : Meter) (cur : Bytes) :
    (shown.add m (cur ⊔ shown.amount m - shown.amount m)).amount m' =
      if m = m' then cur ⊔ shown.amount m' else shown.amount m' := by
  rw [Ledger.amount_add]
  split
  · rename_i heq
    rw [heq, add_sub_cancel]
  · rw [add_zero]

theorem amount_le_raise (shown : Ledger Meter Bytes) (m m' : Meter) (cur : Bytes) :
    shown.amount m' ≤ (shown.add m (cur ⊔ shown.amount m - shown.amount m)).amount m' := by
  rw [amount_raise]
  split
  · exact le_sup_right
  · exact le_rfl

/-- A tick is credited. -/
theorem Counting.raise (h : s.Counting a) {p : SpeedPoller} (hp : p ∈ s.pollers) {tag : Text}
    {cur : Bytes} (hcur : p.tick.Carries tag cur) (profile : ℤ) :
    s.Counting
      { a with
        shown := a.shown.add (p.gen, tag, profile)
          (cur ⊔ a.shown.amount (p.gen, tag, profile) - a.shown.amount (p.gen, tag, profile)) } where
  nonneg := h.nonneg
  gens := h.gens
  fresh m hm := by
    obtain hm | rfl := Ledger.mem_keys_add.mp hm
    · exact h.fresh m hm
    · exact h.gens p hp
  shown m hm := Ledger.mem_keys_add.mpr (.inl (h.shown m hm))
  below tag' profile' := by
    dsimp only
    rw [amount_raise]
    split
    · rename_i heq
      obtain ⟨hgen, rfl, rfl⟩ : p.gen = s.sessionGen ∧ tag = tag' ∧ profile = profile' := by
        simpa using heq
      exact sup_le (h.current p hp tag cur hcur hgen) (h.below tag profile)
    · exact h.below tag' profile'
  current := h.current
  carried := h.carried
  late q hq tag' cur' hcur' profile' hreported :=
    (h.late q hq tag' cur' hcur' profile' hreported).trans (amount_le_raise _ _ _ _)
  settled m hm := by
    dsimp only
    rw [amount_raise, ← h.settled m hm]
    split
    · rename_i heq
      subst heq
      exact sup_eq_right.mpr (h.late p hp tag cur hcur profile hm)
    · rfl
  probing := h.probing
  counted := h.counted
  distinct := h.distinct
  pending := h.pending

/-- A result of the answer is credited. -/
theorem Counting.report (h : s.Counting a) {target : Target} {results : List (Text × Bytes)}
    {targets : List Target} (hw : s.worker = .answered target results targets) {tag : Text}
    (hnone : ∀ m ∈ a.reported.keys, m.1 = s.sessionGen → m.2.1 ≠ tag)
    (htag : tag ∉ results.map Prod.fst) (profile : ℤ) :
    let m := (s.sessionGen, tag, profile)
    s.Counting
      { shown := a.shown.add m (s.counters tag ⊔ a.shown.amount m - a.shown.amount m)
        reported := a.reported.add m (s.counters tag) } := by
  intro m
  have hnew : m ∉ a.reported.keys := fun hmem => hnone m hmem rfl rfl
  have hseen : s.counters tag ⊔ a.shown.amount m = s.counters tag :=
    sup_eq_left.mpr (h.below tag profile)
  exact
    { nonneg := h.nonneg
      gens := h.gens
      fresh := fun m' hm' => by
        obtain hm' | rfl := Ledger.mem_keys_add.mp hm'
        · exact h.fresh m' hm'
        · exact le_rfl
      shown := fun m' hm' =>
        Ledger.mem_keys_add.mpr ((Ledger.mem_keys_add.mp hm').imp_left (h.shown m'))
      below := fun tag' profile' => by
        dsimp only
        rw [amount_raise]
        split
        · rename_i heq
          obtain ⟨rfl, rfl⟩ : tag = tag' ∧ profile = profile' := by simpa [m] using heq
          exact hseen.le
        · exact h.below tag' profile'
      current := h.current
      carried := h.carried
      late := fun q hq tag' cur' hcur' profile' hreported => by
        obtain hreported | heq := Ledger.mem_keys_add.mp hreported
        · exact (h.late q hq tag' cur' hcur' profile' hreported).trans (amount_le_raise _ _ _ _)
        · obtain ⟨hgen, rfl, rfl⟩ : q.gen = s.sessionGen ∧ tag' = tag ∧ profile' = profile := by
            simpa [m] using heq
          dsimp only
          rw [amount_raise, heq, if_pos rfl, hseen]
          exact h.current q hq tag' cur' hcur' hgen
      settled := fun m' hm' => by
        dsimp only
        rw [amount_raise, Ledger.amount_add]
        obtain hm' | rfl := Ledger.mem_keys_add.mp hm'
        · have hne : m ≠ m' := fun heq => hnew (heq ▸ hm')
          rw [if_neg hne, if_neg hne, add_zero]
          exact h.settled m' hm'
        · rw [if_pos rfl, if_pos rfl, Ledger.amount_of_not_mem hnew, zero_add]
          exact hseen
      probing := fun target' targets' hw' => by
        rw [hw] at hw'
        exact SpeedWorker.noConfusion hw'
      counted := h.counted
      distinct := h.distinct
      pending := fun target' results' targets' hw' m' hm' hcurrent => by
        obtain hm' | rfl := Ledger.mem_keys_add.mp hm'
        · exact h.pending target' results' targets' hw' m' hm' hcurrent
        · rw [hw] at hw'
          cases hw'
          exact htag }

/-! ## The steps -/

theorem Counting.of_credit (h : s.Counting a) (profile : ℤ) (tag : Text) (cur : Bytes) :
    (s.creditTraffic profile tag cur).Counting a :=
  h.between (creditTraffic_sessionGen ..) (creditTraffic_counters ..)
    (fun p hp => ⟨p, creditTraffic_pollers s profile tag cur ▸ hp, rfl, rfl⟩)
    (.inl (creditTraffic_worker ..))

/-- What the generation, the counters, the worker and the pollers do not notice. -/
theorem Counting.same (h : s.Counting a) {t : SpeedTests} (hgen : t.sessionGen = s.sessionGen)
    (hcounters : t.counters = s.counters) (hpollers : t.pollers = s.pollers)
    (hworker : t.worker = s.worker ∨ t.worker.probes = false) :
    t.Counting a :=
  h.between hgen hcounters (fun p hp => ⟨p, hpollers ▸ hp, rfl, rfl⟩) hworker

theorem Counting.runSpeedTests (h : s.Counting a) (items : List TestItem) (testCurrent : Bool) :
    (s.runSpeedTests items testCurrent).Counting a := by
  dsimp only [SpeedTests.runSpeedTests]
  split
  · exact h
  · exact h.newGen rfl h.nonneg (fun p hp => .inl hp) fun _ _ _ hw => nomatch hw

theorem Counting.clearCredits (h : s.Counting a) : s.clearCredits.Counting a := by
  unfold SpeedTests.clearCredits
  split
  · exact h.same rfl rfl rfl (.inr rfl)
  · exact h

theorem Counting.startProbe (h : s.Counting a) : s.startProbe.Counting a := by
  dsimp only [SpeedTests.startProbe]
  split
  · split
    · exact h.same rfl rfl rfl (.inr rfl)
    · refine h.newGen rfl (fun _ => le_rfl) (fun p hp => ?_) fun _ _ _ hw => nomatch hw
      obtain hp | hp := List.mem_append.mp hp
      · exact .inl hp
      · obtain rfl := List.mem_singleton.mp hp
        exact .inr ⟨rfl, rfl⟩
  · exact h

theorem Counting.fail (h : s.Counting a) : s.fail.Counting a := by
  unfold SpeedTests.fail
  split
  · exact h.between rfl rfl (fun p hp => mem_stopPoller hp)
      (.inr rfl)
  · exact h

theorem Counting.endSession (h : s.Counting a) : s.endSession.Counting a := by
  unfold SpeedTests.endSession
  split
  · exact h.same rfl rfl rfl (.inr rfl)
  · exact h

/-- A tick is answered for the probe under way. -/
theorem Counting.poll (h : s.Counting a) (k : ℕ) (tag : Text) : (s.poll k tag).Counting a := by
  unfold SpeedTests.poll
  split
  · rename_i p target targets hp hw
    split
    · rename_i hfresh
      refine h.setTick hp fun tag' cur hcur => .inr ?_
      obtain ⟨rfl, rfl⟩ : tag = tag' ∧ s.counters tag = cur := by simpa [Tick.Carries] using hcur
      exact ⟨hfresh.2.2, rfl, h.probing target targets hw⟩
    · exact h
  · exact h

theorem Counting.checkTick (h : s.Counting a) (k : ℕ) : (s.checkTick k).Counting a := by
  have hidle : ∀ {p : SpeedPoller}, s.pollers[k]? = some p → (s.setTick k p .idle).Counting a :=
    fun hp => h.setTick hp fun _ _ hcur => absurd hcur Tick.not_carries_idle
  unfold SpeedTests.checkTick
  split
  · rename_i p hp
    split
    · rename_i tag cur htick
      split
      · exact hidle hp
      · split
        · refine h.setTick hp fun tag' cur' hcur' => .inl ?_
          obtain ⟨rfl, rfl⟩ : tag = tag' ∧ cur = cur' := by simpa [Tick.Carries] using hcur'
          exact .inl htick
        · exact hidle hp
    · exact h
  · exact h

/-- The audit follows a tick. -/
theorem Counting.creditTick (h : s.Counting a) (k : ℕ) :
    (s.creditTick k).Counting (s.observe a (.creditTick k)) := by
  cases s.creditTick_cases k with
  | credit hp htick hcall hstep =>
    rename_i p profile tag cur
    rw [hstep, observe_of_some hcall]
    have hraise := h.raise (List.mem_of_getElem? hp) (.inr ⟨profile, htick⟩) profile
    have hidle := hraise.setTick hp fun _ _ hcur => absurd hcur Tick.not_carries_idle
    exact hidle.of_credit profile tag cur
  | none hcall hstep =>
    rw [hstep, observe_of_none hcall]
    exact h

/-- The audit follows a result of the answer. -/
theorem Counting.creditResult (h : s.Counting a) :
    s.creditResult.Counting (s.observe a .creditResult) := by
  cases s.creditResult_cases with
  | credit hw hprofile hcall hstep =>
    rename_i target tag cur results targets ent
    have hcur : cur = s.counters tag := h.counted _ _ _ hw (tag, cur) List.mem_cons_self
    have hnone : ∀ m ∈ a.reported.keys, m.1 = s.sessionGen → m.2.1 ≠ tag :=
      fun m hm hcurrent heq => h.pending _ _ _ hw m hm hcurrent (heq ▸ List.mem_cons_self)
    have htag : tag ∉ results.map Prod.fst := (List.nodup_cons.mp (h.distinct _ _ _ hw)).1
    rw [hstep, observe_of_some hcall]
    subst hcur
    exact ((h.pop hw).report rfl hnone htag ent).of_credit ent tag (s.counters tag)
  | skip hw hcall hstep =>
    rw [hstep, observe_of_none hcall]
    exact h.pop hw
  | last hw hcall hstep =>
    rw [hstep, observe_of_none hcall]
    exact h.same rfl rfl rfl (.inr rfl)
  | none hcall hstep =>
    rw [hstep, observe_of_none hcall]
    exact h

/-- **Every step keeps the count.** -/
theorem Counting.step (h : s.Counting a) (ev : Event) : (s.step ev).Counting (s.observe a ev) := by
  cases ev with
  | runSpeedTests items testCurrent => exact h.runSpeedTests items testCurrent
  | clearCredits => exact h.clearCredits
  | startProbe => exact h.startProbe
  | moveBytes tag up down => exact h.moveBytes tag up down
  | answer tags => exact h.answer tags
  | fail => exact h.fail
  | creditResult => exact h.creditResult
  | endSession => exact h.endSession
  | poll k tag => exact h.poll k tag
  | checkTick k => exact h.checkTick k
  | creditTick k => exact h.creditTick k
  | flushTrafficCredits => exact h.same rfl rfl rfl (.inl rfl)
  | stop => exact h.same rfl rfl rfl (.inl rfl)
  | profileRuns running => exact h.same rfl rfl rfl (.inl rfl)
  | settings disabled countryOnly => exact h.same rfl rfl rfl (.inl rfl)

end SpeedTests

end Throned.Engine.Tests
