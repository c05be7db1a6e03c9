import Throned.Analysis.IpListInvariant

/-!
# The steps of the calls on an IP list

Each step of a call keeps the invariant of the generations.
-/

set_option autoImplicit false

namespace Throned.IpLists

open Throned.Library Throned.Scanner

/-- A call here relies on nothing but its own account. -/
def Pc.plain : Pc → Bool
  | .stage _ _ _ _ _ => false
  | .purgeScan (.replace _) _ => false
  | .purgeGeneration (.replace _) _ _ => false
  | .readPage _ => false
  | .readDone _ => false
  | _ => true

namespace ListState

variable {s t : ListState} {request : Request} {shown : List (List IpListEntry)} {pc next : Pc}

theorem CallOk.of_plain (hplain : pc.plain = true) (hserves : Serves request shown pc) :
    s.CallOk ⟨request, pc, shown⟩ := by
  refine ⟨?_, ?_, hserves, ?_, ?_⟩
  · rintro unique current target begin replacing rfl
    cases hplain
  · rintro unique keep (rfl | ⟨stale, rfl⟩) <;> cases hplain
  · rintro reader rfl
    cases hplain
  · rintro reader rfl
    cases hplain

/-- What readers have seen of a call after a step. -/
def shownAfter (s t : ListState) (shown : List (List IpListEntry)) : List (List IpListEntry) :=
  if t.header = s.header ∧ t.liveEntries = s.liveEntries then shown else shown ++ [t.liveEntries]

theorem shownAfter_same (hheader : t.header = s.header) (hrows : t.liveRows = s.liveRows) :
    shownAfter s t shown = shown := by
  unfold shownAfter liveEntries
  rw [if_pos ⟨hheader, by rw [hrows]⟩]

/-- What the step of a call from `pc` to `next` does. -/
structure Resumed (s : ListState) (request : Request) (shown : List (List IpListEntry)) (pc : Pc)
    (t : ListState) (next : Pc) : Prop where
  later : Later s t
  owned : t.header = none → t.table.rows = []
  issued : t.header ≠ none → t.issued = true
  enters : next.inside = true → t.claimed = true ∧ (pc.inside = true ∨ s.claimed = false)
  outside : pc.inside = false →
    (t.claimed = s.claimed ∨ s.claimed = false) ∧ Respects s t
  ok : t.CallOk ⟨request, next, shownAfter s t shown⟩

/-- A step that leaves the header and the table alone. -/
theorem Resumed.quiet (h : s.Inv) (hheader : t.header = s.header) (htable : t.table = s.table)
    (hissued : t.issued = s.issued) (hflips : t.flips = s.flips)
    (henters : next.inside = true → t.claimed = true ∧ (pc.inside = true ∨ s.claimed = false))
    (houtside : pc.inside = false → t.claimed = s.claimed ∨ s.claimed = false)
    (hok : s.CallOk ⟨request, next, shown⟩) : Resumed s request shown pc t next := by
  have hrespects : Respects s t := ⟨hheader, fun g _ => by rw [htable]⟩
  have hlive : t.liveRows = s.liveRows := by
    unfold liveRows
    rw [hheader, htable]
  refine ⟨Later.of_eq hissued hflips hheader, ?_, ?_, henters,
    fun hout => ⟨houtside hout, hrespects⟩, ?_⟩
  · rw [hheader, htable]
    exact h.owned
  · rw [hheader, hissued]
    exact h.issued
  · rw [shownAfter_same hheader hlive]
    exact hok.later (Later.of_eq hissued hflips hheader) fun _ => hrespects

/-- A step that changes nothing at all. -/
theorem Resumed.idle (h : s.Inv) (hclaimed : pc.inside = true → s.claimed = true)
    (hinside : next.inside = true → pc.inside = true) (hok : s.CallOk ⟨request, next, shown⟩) :
    Resumed s request shown pc s next :=
  Resumed.quiet h rfl rfl rfl rfl
    (fun hnext => ⟨hclaimed (hinside hnext), Or.inl (hinside hnext)⟩) (fun _ => Or.inl rfl) hok

/-- A call takes the claim. -/
theorem Resumed.claim (h : s.Inv) (hfree : s.claimed = false)
    (hok : s.CallOk ⟨request, next, shown⟩) :
    Resumed s request shown pc { s with claimed := true } next :=
  Resumed.quiet h rfl rfl rfl rfl (fun _ => ⟨rfl, Or.inr hfree⟩) (fun _ => Or.inr hfree) hok

/-- A step of a call with the claim that removes rows, but none of the live ones. -/
theorem Resumed.purge (h : s.Inv) (hclaimed : s.claimed = true) (hinside : pc.inside = true)
    (generation : ℕ) (ok : Bool)
    (hok : ∀ t, t.header = s.header → t.flips = s.flips → t.issued = s.issued →
      (s.purgeGenerationStep generation ok).1 = t → t.CallOk ⟨request, next, shown⟩) :
    Resumed s request shown pc (s.purgeGenerationStep generation ok).1 next := by
  obtain ⟨p, hp, heq | heq⟩ := purgeGenerationStep_spec s generation ok
  · rw [heq]
    exact Resumed.idle h (fun _ => hclaimed) (fun _ => hinside) (hok s rfl rfl rfl heq)
  · have hok' := hok { s with table := s.table.keep p } rfl rfl rfl heq
    rw [heq]
    refine ⟨Later.of_eq rfl rfl rfl, fun hnone => ?_, h.issued, fun _ => ⟨hclaimed, Or.inl hinside⟩,
      fun hout => ?_, ?_⟩
    · show s.table.rows.filter p = []
      rw [h.owned hnone, List.filter_nil]
    · rw [hinside] at hout
      cases hout
    · have hsame : shownAfter s { s with table := s.table.keep p } shown = shown :=
        shownAfter_same rfl (liveRows_keep hp)
      rw [hsame]
      exact hok'

/-- A call with the claim ends it, or makes another list of rows the live one. -/
theorem Resumed.flip (h : s.Inv) (hclaimed : s.claimed = true) (hinside : pc.inside = true)
    {old new : ℕ} (hold : s.header = some old) (hnew : t.header = some new) (hlt : old < new)
    (hissued : t.issued = s.issued) (hflips : t.flips = s.flips + 1)
    (hclaim : t.claimed = s.claimed)
    (hok : t.CallOk ⟨request, next, shown ++ [t.liveEntries]⟩) :
    Resumed s request shown pc t next := by
  have hissued' : s.issued = true := h.issued (by rw [hold]; nofun)
  refine ⟨⟨fun h => hissued ▸ h, fun _ => Or.inr ⟨hflips, old, new, hold, hnew, hlt⟩⟩,
    fun hnone => ?_, fun _ => hissued.trans hissued',
    fun _ => ⟨hclaim.trans hclaimed, Or.inl hinside⟩, fun hout => ?_, ?_⟩
  · rw [hnew] at hnone
    cases hnone
  · rw [hinside] at hout
    cases hout
  · have hne : ¬ (t.header = s.header ∧ t.liveEntries = s.liveEntries) := by
      rintro ⟨heq, -⟩
      rw [hold, hnew] at heq
      have := Option.some.inj heq
      omega
    unfold shownAfter
    rw [if_neg hne]
    exact hok

/-- A step of a call without the claim that changes rows of the live generation only. -/
theorem Resumed.write (h : s.Inv) {live : ℕ} (hlive : s.header = some live)
    (hheader : t.header = s.header) (hissued : t.issued = s.issued) (hflips : t.flips = s.flips)
    (hclaim : t.claimed = s.claimed)
    (hrows : ∀ g, live ≠ g → t.table.rowsOf g = s.table.rowsOf g) (hnext : next.inside = false)
    (hplain : next.plain = true) (hserves : ∀ shown, Serves request shown next) :
    Resumed s request shown pc t next := by
  refine ⟨Later.of_eq hissued hflips hheader, fun hnone => ?_, fun hne => ?_, fun hin => ?_,
    fun _ => ⟨Or.inl hclaim, ⟨hheader, fun g hg => ?_⟩⟩, CallOk.of_plain hplain (hserves _)⟩
  · rw [hheader, hlive] at hnone
    cases hnone
  · rw [hissued]
    exact h.issued (hheader ▸ hne)
  · rw [hnext] at hin
    cases hin
  · exact hrows g fun heq => hg (by rw [hlive, heq])

/-! ## The steps with the claim -/

variable {k : ℕ} {answer : Answer}

/-- What comes after a purge that did not go through. -/
theorem Serves.next_false {task : Task} {keep : Option ℕ}
    (h : Serves request shown (.purgeScan task keep)) :
    (Task.next task keep false).plain = true ∧ Serves request shown (Task.next task keep false) := by
  cases task with
  | replace unique =>
    obtain ⟨entries, rfl, -, rfl⟩ := h
    exact ⟨rfl, fun _ _ => rfl⟩
  | clear => exact ⟨rfl, fun entries heq => absurd heq (h entries)⟩
  | discard expected => exact ⟨rfl, h⟩

theorem Serves.purgeGeneration {task : Task} {keep : Option ℕ} {stale : ℕ} :
    Serves request shown (.purgeGeneration task keep stale) ↔
      Serves request shown (.purgeScan task keep) := by
  cases task <;> exact Iff.rfl

theorem resumed_purgeScan (h : s.Inv) (hclaimed : s.claimed = true) {task : Task}
    {keep : Option ℕ} (hok : s.CallOk ⟨request, .purgeScan task keep, shown⟩) :
    Resumed s request shown (.purgeScan task keep) (s.resume k answer (.purgeScan task keep)).1
      (s.resume k answer (.purgeScan task keep)).2 := by
  have hfalse := Serves.next_false hok.serves
  simp only [resume]
  split
  · cases hstale : s.staleGeneration keep with
    | some stale =>
      refine Resumed.idle h (fun _ => hclaimed) (fun _ => rfl) ?_
      refine ⟨nofun, ?_, Serves.purgeGeneration.mpr hok.serves, nofun, nofun⟩
      · rintro unique keep' (hpc | ⟨stale', hpc⟩)
        · cases hpc
        · obtain ⟨rfl, rfl, -⟩ := Pc.purgeGeneration.inj hpc
          exact hok.purge unique keep (Or.inl rfl)
    | none =>
      refine Resumed.idle h (fun _ => hclaimed) (fun _ => rfl) ?_
      cases task with
      | replace unique =>
        obtain ⟨hsome, hkeep⟩ := hok.purge unique keep (Or.inl rfl)
        obtain ⟨current, hcurrent⟩ := Option.ne_none_iff_exists'.mp hsome
        rw [hcurrent] at hkeep
        subst hkeep
        -- nothing but the live generation is left, so the next one is empty
        refine ⟨?_, ?_, hok.serves, nofun, nofun⟩
        · intro unique' current' target begin replacing hpc
          obtain ⟨rfl, rfl, rfl, rfl, rfl⟩ := Pc.stage.inj hpc
          refine ⟨rfl, fun _ => ⟨Nat.zero_le _, hcurrent, ?_⟩⟩
          rw [entryRows_zero]
          exact staleGeneration_none hstale (Nat.succ_ne_self current)
        · rintro unique' keep' (hpc | ⟨stale', hpc⟩) <;> cases hpc
      | clear => exact CallOk.of_plain rfl hfalse.2
      | discard expected => exact CallOk.of_plain rfl hok.serves
  · exact Resumed.idle h (fun _ => hclaimed) (fun _ => rfl) (CallOk.of_plain hfalse.1 hfalse.2)

theorem resumed_purgeGeneration (h : s.Inv) (hclaimed : s.claimed = true) {task : Task}
    {keep : Option ℕ} {stale : ℕ}
    (hok : s.CallOk ⟨request, .purgeGeneration task keep stale, shown⟩) :
    Resumed s request shown (.purgeGeneration task keep stale)
      (s.resume k answer (.purgeGeneration task keep stale)).1
      (s.resume k answer (.purgeGeneration task keep stale)).2 := by
  have hserves := Serves.purgeGeneration.mp hok.serves
  have hfalse := Serves.next_false hserves
  have hkept : ∀ t : ListState, t.header = s.header → ∀ unique keep',
      (task = .replace unique ∧ keep = keep') → t.header ≠ none ∧ t.header = keep' := by
    rintro t ht unique keep' ⟨rfl, rfl⟩
    rw [ht]
    exact hok.purge unique keep (Or.inr ⟨stale, rfl⟩)
  have hresult : ∀ next : Pc, (next = .purgeGeneration task keep stale ∨
      next = .purgeScan task keep ∨ next = Task.next task keep false) →
      Resumed s request shown (.purgeGeneration task keep stale)
        (s.purgeGenerationStep stale answer.ok).1 next := by
    intro next hnext
    refine Resumed.purge h hclaimed rfl stale answer.ok fun t hheader hflips hissued ht => ?_
    rcases hnext with rfl | rfl | rfl
    · refine ⟨nofun, ?_, hok.serves, nofun, nofun⟩
      · rintro unique keep' (hpc | ⟨stale', hpc⟩)
        · cases hpc
        · obtain ⟨rfl, rfl, -⟩ := Pc.purgeGeneration.inj hpc
          exact hkept t hheader unique keep ⟨rfl, rfl⟩
    · refine ⟨nofun, ?_, hserves, nofun, nofun⟩
      · rintro unique keep' (hpc | ⟨stale', hpc⟩)
        · obtain ⟨rfl, rfl⟩ := Pc.purgeScan.inj hpc
          exact hkept t hheader unique keep ⟨rfl, rfl⟩
        · cases hpc
    · exact CallOk.of_plain hfalse.1 hfalse.2
  simp only [resume]
  cases hstep : s.purgeGenerationStep stale answer.ok with
  | mk t flags =>
    obtain ⟨went, more⟩ := flags
    rw [hstep] at hresult
    cases went <;> cases more
    · exact hresult _ (Or.inr (Or.inr rfl))
    · exact hresult _ (Or.inr (Or.inr rfl))
    · exact hresult _ (Or.inr (Or.inl rfl))
    · exact hresult _ (Or.inl rfl)

theorem resumed_cleanup (h : s.Inv) (hclaimed : s.claimed = true) {generation : ℕ} {result : Bool}
    (hok : s.CallOk ⟨request, .cleanup generation result, shown⟩) :
    Resumed s request shown (.cleanup generation result)
      (s.resume k answer (.cleanup generation result)).1
      (s.resume k answer (.cleanup generation result)).2 := by
  obtain ⟨entries, hrequest, hshown⟩ : ∃ entries, request = .replaceEntries entries ∧
    shown = if result then [deduplicated entries] else [] := hok.serves
  have hresult : ∀ next : Pc, (next = .cleanup generation result ∨ next = .release result) →
      Resumed s request shown (.cleanup generation result)
        (s.purgeGenerationStep generation answer.ok).1 next := by
    intro next hnext
    refine Resumed.purge h hclaimed rfl generation answer.ok fun t _ _ _ _ => ?_
    rcases hnext with rfl | rfl
    · exact CallOk.of_plain rfl ⟨entries, hrequest, hshown⟩
    · refine CallOk.of_plain rfl fun entries' heq => ?_
      rw [← Request.replaceEntries.inj (hrequest.symm.trans heq)]
      exact hshown
  simp only [resume]
  cases hstep : s.purgeGenerationStep generation answer.ok with
  | mk t flags =>
    obtain ⟨went, more⟩ := flags
    rw [hstep] at hresult
    cases went <;> cases more
    · exact hresult _ (Or.inr rfl)
    · exact hresult _ (Or.inr rfl)
    · exact hresult _ (Or.inr rfl)
    · exact hresult _ (Or.inl rfl)

/-- The live generation becomes a fresh one. -/
theorem resumed_bump (h : s.Inv) (hclaimed : s.claimed = true) (hinside : pc.inside = true)
    (hrequest : ∀ entries, request ≠ .replaceEntries entries) (requireDetached : Bool)
    {found : ℕ → Pc} (hfound : ∀ fresh, (found fresh).plain = true ∧
      ∀ shown, Serves request shown (found fresh)) :
    Resumed s request shown pc (s.bumpGeneration requireDetached answer).1
      ((s.bumpGeneration requireDetached answer).2.elim (.release false) found) := by
  cases hbump : (s.bumpGeneration requireDetached answer).2 with
  | none =>
    rw [bumpGeneration_none hbump]
    exact Resumed.idle h (fun _ => hclaimed) (fun _ => hinside)
      (CallOk.of_plain rfl fun entries heq => absurd heq (hrequest entries))
  | some fresh =>
    obtain ⟨live, hlive, hlt, heq⟩ := bumpGeneration_some hbump
    rw [heq]
    exact Resumed.flip h hclaimed hinside hlive rfl hlt rfl rfl rfl
      (CallOk.of_plain (hfound fresh).1 ((hfound fresh).2 _))

theorem resumed_clearBump (h : s.Inv) (hclaimed : s.claimed = true)
    (hok : s.CallOk ⟨request, .clearBump, shown⟩) :
    Resumed s request shown .clearBump (s.resume k answer .clearBump).1
      (s.resume k answer .clearBump).2 := by
  have hbump := @resumed_bump _ _ shown _ answer h hclaimed
    (show Pc.clearBump.inside = true from rfl) hok.serves false
    (fun fresh => .purgeScan .clear (some fresh)) fun _ => ⟨rfl, fun _ => hok.serves⟩
  simp only [resume]
  cases hstep : s.bumpGeneration false answer with
  | mk t fresh =>
    rw [hstep] at hbump
    cases fresh <;> exact hbump

theorem resumed_deleteBump (h : s.Inv) (hclaimed : s.claimed = true) {onlyIfDetached : Bool}
    (hok : s.CallOk ⟨request, .deleteBump onlyIfDetached, shown⟩) :
    Resumed s request shown (.deleteBump onlyIfDetached)
      (s.resume k answer (.deleteBump onlyIfDetached)).1
      (s.resume k answer (.deleteBump onlyIfDetached)).2 := by
  have hbump := @resumed_bump _ _ shown _ answer h hclaimed
    (show (Pc.deleteBump onlyIfDetached).inside = true from rfl) hok.serves onlyIfDetached
    (fun fresh => .purgeScan (.discard (some fresh)) (some fresh))
    fun _ => ⟨rfl, fun _ => hok.serves⟩
  simp only [resume]
  cases hstep : s.bumpGeneration onlyIfDetached answer with
  | mk t fresh =>
    rw [hstep] at hbump
    cases fresh <;> exact hbump

/-- **The last transaction of a replace shows exactly its entries.** -/
theorem resumed_stage (h : s.Inv) (hclaimed : s.claimed = true) {unique : List IpListEntry}
    {current target begin : ℕ} {replacing : Bool}
    (hok : s.CallOk ⟨request, .stage unique current target begin replacing, shown⟩) :
    Resumed s request shown (.stage unique current target begin replacing)
      (s.resume k answer (.stage unique current target begin replacing)).1
      (s.resume k answer (.stage unique current target begin replacing)).2 := by
  obtain ⟨htarget, hreplacing⟩ := hok.stage _ _ _ _ _ rfl
  have hserves : Serves request shown (.stage unique current target begin replacing) := hok.serves
  simp only [resume]
  cases hstage : s.stageStep unique current target begin answer.ok with
  | none =>
    refine Resumed.idle h (fun _ => hclaimed) (fun _ => rfl) ?_
    cases replacing with
    | false => exact CallOk.of_plain rfl hserves
    | true =>
      obtain ⟨entries, hrequest, -, hshown⟩ := hserves
      exact CallOk.of_plain rfl ⟨entries, hrequest, hshown⟩
  | some result =>
    obtain ⟨t, last⟩ := result
    obtain ⟨hcurrent, htable, hissued, hclaim, -, hlast, hmore⟩ := stageStep_some hstage
    cases last with
    | true =>
      obtain ⟨hlen, hheader, hflips⟩ := hlast rfl
      refine Resumed.flip h hclaimed rfl hcurrent hheader (by omega) hissued hflips hclaim ?_
      cases replacing with
      | false => exact CallOk.of_plain rfl fun entries heq => absurd heq (hserves entries)
      | true =>
        obtain ⟨entries, hrequest, hunique, hshown⟩ := hserves
        obtain ⟨hbegin, -, hrows⟩ := hreplacing rfl
        have hstop : min (begin + kIpListsRepoChunkRows) unique.length = unique.length :=
          Nat.min_eq_right hlen
        have hlive : t.liveEntries = deduplicated entries := by
          rw [liveEntries, liveRows, hheader]
          simp only
          rw [htable, hstop, rowsOf_ipListsRepoInsertEntries hbegin
            (hunique ▸ deduplicated_nodup entries) hrows, map_entry_entryRows, hunique]
        have hshown' : shown ++ [t.liveEntries] = [deduplicated entries] := by
          rw [hshown, hlive]
          rfl
        exact CallOk.of_plain rfl ⟨entries, hrequest, hshown'⟩
    | false =>
      obtain ⟨hlen, hheader, hflips⟩ := hmore rfl
      have hne : ∀ g, s.header = some g → g ≠ target := by
        intro g hg
        rw [hcurrent] at hg
        have := Option.some.inj hg
        omega
      have hrows' : ∀ g, g ≠ target → t.table.rowsOf g = s.table.rowsOf g := by
        intro g hg
        rw [htable]
        exact rowsOf_ipListsRepoInsertEntries_of_ne hg
      have hsame : shownAfter s t shown = shown := by
        refine shownAfter_same hheader ?_
        unfold liveRows
        rw [hheader]
        cases hlive : s.header with
        | none => rfl
        | some g => exact hrows' g (hne g hlive)
      refine ⟨Later.of_eq hissued hflips hheader, fun hnone => ?_, fun hsome => ?_,
        fun _ => ⟨hclaim.trans hclaimed, Or.inl rfl⟩, nofun, ?_⟩
      · rw [hheader, hcurrent] at hnone
        cases hnone
      · rw [hissued]
        exact h.issued (by rw [hcurrent]; nofun)
      · rw [hsame]
        have hserves' : Serves request shown
            (.stage unique current target (begin + kIpListsRepoChunkRows) replacing) := by
          cases replacing <;> exact hserves
        refine ⟨?_, ?_, hserves', nofun, nofun⟩
        · intro unique' current' target' begin' replacing' hpc
          obtain ⟨rfl, rfl, rfl, rfl, rfl⟩ := Pc.stage.inj hpc
          refine ⟨htarget, fun hrep => ?_⟩
          obtain ⟨hbegin, -, hrows⟩ := hreplacing hrep
          subst hrep
          obtain ⟨entries, -, hunique, -⟩ := hserves
          refine ⟨Nat.le_of_lt hlen, hheader.trans hcurrent, ?_⟩
          rw [htable, Nat.min_eq_left (Nat.le_of_lt hlen)]
          exact rowsOf_ipListsRepoInsertEntries (Nat.le_add_right _ _)
            (hunique ▸ deduplicated_nodup entries) hrows
        · rintro unique' keep' (hpc | ⟨stale', hpc⟩) <;> cases hpc

/-- The header goes, with its rows. -/
theorem Resumed.deleteHeader (hclaimed : s.claimed = true)
    (hinside : pc.inside = true) (hplain : next.plain = true)
    (hserves : ∀ shown, Serves request shown next) :
    Resumed s request shown pc s.deleteHeader next := by
  refine ⟨⟨id, fun _ => Or.inl ⟨rfl, nofun⟩⟩, fun _ => rfl, fun hne => absurd rfl hne,
    fun _ => ⟨hclaimed, Or.inl hinside⟩, fun hout => ?_, CallOk.of_plain hplain (hserves _)⟩
  rw [hinside] at hout
  cases hout

theorem resumed_discardHeader (h : s.Inv) (hclaimed : s.claimed = true) {expected : Option ℕ}
    {purged : Bool} (hok : s.CallOk ⟨request, .discardHeader expected purged, shown⟩) :
    Resumed s request shown (.discardHeader expected purged)
      (s.resume k answer (.discardHeader expected purged)).1
      (s.resume k answer (.discardHeader expected purged)).2 := by
  have hserves : ∀ shown result, Serves request shown (.release result) :=
    fun _ _ entries heq => absurd heq (hok.serves entries)
  have hidle : ∀ result, Resumed s request shown (.discardHeader expected purged) s
      (.release result) := fun result =>
    Resumed.idle h (fun _ => hclaimed) (fun _ => rfl) (CallOk.of_plain rfl (hserves _ result))
  have hgone : ∀ result, Resumed s request shown (.discardHeader expected purged) s.deleteHeader
      (.release result) := fun result =>
    Resumed.deleteHeader hclaimed rfl rfl fun shown => hserves shown result
  simp only [resume]
  cases expected with
  | none =>
    simp only
    split
    · exact hgone false
    · exact hidle false
  | some expected =>
    simp only
    split
    · exact hgone true
    · exact hidle true

/-! ## The steps without the claim -/

/-- An upsert touches rows of its generation only. -/
theorem rowsOf_foldl_upsertEntry {generation g : ℕ} (hg : generation ≠ g)
    (entries : List IpListEntry) (state : EntryTable × Int) :
    (entries.foldl (upsertEntry generation) state).1.rowsOf g = state.1.rowsOf g := by
  induction entries generalizing state with
  | nil => rfl
  | cons entry entries ih =>
    rw [List.foldl_cons, ih]
    unfold upsertEntry
    simp only
    split
    · rfl
    · split
      · exact EntryTable.rowsOf_setLatency _ hg
      · exact EntryTable.rowsOf_insertOrIgnore_of_ne hg

theorem resumed_upsert (h : s.Inv) {rest : List IpListEntry} {pinned : Option ℕ}
    (hserves : ∀ entries, request ≠ .replaceEntries entries) :
    Resumed s request shown (.upsert rest pinned) (s.resume k answer (.upsert rest pinned)).1
      (s.resume k answer (.upsert rest pinned)).2 := by
  have hdone : Resumed s request shown (.upsert rest pinned) s (.finished true) :=
    Resumed.idle h nofun nofun (CallOk.of_plain rfl fun entries heq => absurd heq (hserves entries))
  simp only [resume]
  cases rest with
  | nil => exact hdone
  | cons entry rest =>
    cases answer.ok with
    | false => exact hdone
    | true =>
      cases hheader : s.header with
      | none => exact hdone
      | some generation =>
        simp only
        split
        · exact hdone
        · refine Resumed.write h hheader hheader.symm rfl rfl rfl (fun g hg => ?_) ?_ ?_ ?_
          · exact rowsOf_foldl_upsertEntry hg _ _
          · rfl
          · rfl
          · exact fun _ => hserves

theorem resumed_remove (h : s.Inv) {rest : List IpListEntry} {pinned : Option ℕ}
    (hserves : ∀ entries, request ≠ .replaceEntries entries) :
    Resumed s request shown (.remove rest pinned) (s.resume k answer (.remove rest pinned)).1
      (s.resume k answer (.remove rest pinned)).2 := by
  have hdone : Resumed s request shown (.remove rest pinned) s (.finished true) :=
    Resumed.idle h nofun nofun (CallOk.of_plain rfl fun entries heq => absurd heq (hserves entries))
  simp only [resume]
  cases rest with
  | nil => exact hdone
  | cons entry rest =>
    cases answer.ok with
    | false => exact hdone
    | true =>
      cases hheader : s.header with
      | none => exact hdone
      | some generation =>
        simp only
        split
        · exact hdone
        · refine Resumed.write h hheader hheader.symm rfl rfl rfl (fun g hg => ?_) ?_ ?_ ?_
          · refine EntryTable.rowsOf_keep_of_forall fun row hrow => ?_
            have hne : row.generation ≠ generation := fun heq => hg (heq.symm.trans hrow)
            simp [hne]
          · rfl
          · rfl
          · exact fun _ => hserves

/-- **A page is read while the reader's generation is the live one.** -/
theorem readStep_cases (s : ListState) (reader : Reader) :
    s.readStep reader = .readDone reader ∨
      s.readStep reader = .readHold reader.offset reader.limit ∨
      s.readStep reader = .readDone { reader with out := [], pages := [] } ∨
      ∃ (next : Reader) (part : List EntryRow),
        (s.readStep reader = .readDone next ∨ s.readStep reader = .readPage next) ∧
        s.header = some reader.generation ∧ part.Sublist s.liveRows ∧
        next.generation = reader.generation ∧ next.out = reader.out ++ part.map EntryRow.entry ∧
        next.pages = reader.pages ++ [⟨s.flips, part.map EntryRow.entry⟩] := by
  unfold readStep
  split
  · exact Or.inl rfl
  · right
    split
    · split
      · exact Or.inl rfl
      · exact Or.inr (Or.inl rfl)
    · rename_i hheader
      right
      right
      have hheader' : s.header = some reader.generation := by
        by_contra hne
        exact hheader hne
      have hlive : s.liveRows = s.table.rowsOf reader.generation := by
        rw [liveRows, hheader']
      have hsub : ∀ page, (s.pageRows reader page).Sublist s.liveRows := by
        intro page
        rw [hlive]
        unfold pageRows
        simp only
        split
        · exact (List.take_sublist _ _).trans (List.drop_sublist _ _)
        · exact (List.take_sublist _ _).trans List.filter_sublist
      simp only
      split
      · exact ⟨_, _, Or.inl rfl, hheader', hsub _, rfl, rfl, rfl⟩
      · exact ⟨_, _, Or.inr rfl, hheader', hsub _, rfl, rfl, rfl⟩

theorem ReaderOk.oneVersion {reader : Reader} {since : ℕ} (h : s.ReaderOk reader since) :
    OneVersion reader :=
  ⟨fun page hpage page' hpage' => (h.pages page hpage).trans (h.pages page' hpage').symm, h.out⟩

theorem oneVersion_nil (reader : Reader) : OneVersion { reader with out := [], pages := [] } :=
  ⟨nofun, rfl⟩

theorem CallOk.of_readDone {reader : Reader} (hreader : OneVersion reader)
    (hserves : ∀ entries, request ≠ .replaceEntries entries) :
    s.CallOk ⟨request, .readDone reader, shown⟩ := by
  refine ⟨nofun, ?_, hserves, nofun, fun reader' hpc => ?_⟩
  · rintro unique keep (hpc | ⟨stale, hpc⟩) <;> cases hpc
  · rw [← Pc.readDone.inj hpc]
    exact hreader

theorem CallOk.of_readPage {reader : Reader} {since : ℕ} (hreader : s.ReaderOk reader since)
    (hserves : ∀ entries, request ≠ .replaceEntries entries) :
    s.CallOk ⟨request, .readPage reader, shown⟩ := by
  refine ⟨nofun, ?_, hserves, fun reader' hpc => ?_, nofun⟩
  · rintro unique keep (hpc | ⟨stale, hpc⟩) <;> cases hpc
  · rw [← Pc.readPage.inj hpc]
    exact ⟨since, hreader⟩

/-- A page that is added was read at the flip the reader began at. -/
theorem ReaderOk.page {reader next : Reader} {since : ℕ} {part : List EntryRow}
    (h : s.ReaderOk reader since) (hheader : s.header = some reader.generation)
    (hgeneration : next.generation = reader.generation)
    (hout : next.out = reader.out ++ part.map EntryRow.entry)
    (hpages : next.pages = reader.pages ++ [⟨s.flips, part.map EntryRow.entry⟩]) :
    s.ReaderOk next since := by
  have hflips : s.flips = since := by
    rcases Nat.eq_or_lt_of_le h.before with heq | hlt
    · exact heq.symm
    · exact absurd (h.later hlt _ hheader) (Nat.lt_irrefl _)
  refine ⟨h.issued, h.before, hgeneration ▸ h.same, hgeneration ▸ h.later, ?_, ?_⟩
  · intro page hpage
    rw [hpages] at hpage
    rcases List.mem_append.mp hpage with hpage | hpage
    · exact h.pages page hpage
    · rw [List.mem_singleton.mp hpage]
      exact hflips
  · rw [hout, hpages, h.out, List.flatMap_append, List.flatMap_singleton]

theorem resumed_readPage (h : s.Inv) {reader : Reader}
    (hok : s.CallOk ⟨request, .readPage reader, shown⟩) :
    Resumed s request shown (.readPage reader) (s.resume k answer (.readPage reader)).1
      (s.resume k answer (.readPage reader)).2 := by
  have hserves : ∀ entries, request ≠ .replaceEntries entries := hok.serves
  obtain ⟨since, hreader⟩ := hok.reader reader rfl
  have hidle : ∀ next : Pc, next.inside = false → s.CallOk ⟨request, next, shown⟩ →
      Resumed s request shown (.readPage reader) s next := fun next hnext hcall =>
    Resumed.idle h nofun (fun hin => by rw [hnext] at hin; cases hin) hcall
  simp only [resume]
  split
  · rcases readStep_cases s reader with heq | heq | heq |
      ⟨next, part, heq, hheader, -, hgen, hout, hpages⟩
    · rw [heq]
      exact hidle _ rfl (CallOk.of_readDone hreader.oneVersion hserves)
    · rw [heq]
      exact hidle _ rfl (CallOk.of_plain rfl hserves)
    · rw [heq]
      exact hidle _ rfl (CallOk.of_readDone (oneVersion_nil reader) hserves)
    · have hnext := hreader.page hheader hgen hout hpages
      rcases heq with heq | heq
      · rw [heq]
        exact hidle _ rfl (CallOk.of_readDone hnext.oneVersion hserves)
      · rw [heq]
        exact hidle _ rfl (CallOk.of_readPage hnext hserves)
  · exact hidle _ rfl (CallOk.of_readDone (oneVersion_nil reader) hserves)

theorem resumed_readGeneration (h : s.Inv) {offset limit : Int} {attempt : ℕ}
    (hserves : ∀ entries, request ≠ .replaceEntries entries) :
    Resumed s request shown (.readGeneration offset limit attempt)
      (s.resume k answer (.readGeneration offset limit attempt)).1
      (s.resume k answer (.readGeneration offset limit attempt)).2 := by
  simp only [resume]
  cases answer.ok with
  | false =>
    exact Resumed.idle h nofun nofun (CallOk.of_readDone ⟨nofun, rfl⟩ hserves)
  | true =>
    cases hheader : s.header with
    | none => exact Resumed.idle h nofun nofun (CallOk.of_readDone ⟨nofun, rfl⟩ hserves)
    | some generation =>
      refine Resumed.idle h nofun nofun (@CallOk.of_readPage _ _ _ _ s.flips ?_ hserves)
      refine ⟨h.issued (by rw [hheader]; nofun), le_rfl, fun _ live hlive => ?_, fun hlt => ?_,
        nofun, rfl⟩
      · exact Option.some.inj (hlive.symm.trans hheader)
      · exact absurd hlt (Nat.lt_irrefl _)

end ListState

end Throned.IpLists
