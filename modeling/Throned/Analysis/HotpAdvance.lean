import Throned.Model.Otp

/-!
# All counters or none

`AdvanceHotpCounters` moves every supplied counter by one, in the table and in memory, or it
changes nothing, wherever the storage refuses a statement.  A counter that a code came from
stays behind the table and the memory.
-/

set_option autoImplicit false

namespace Throned.OTP

open List

namespace OtpProfilesRepo

/-- **The supplied counters move by one together, or nothing moves.** -/
structure AllOrNone (repo : OtpProfilesRepo) (expected : Snapshots)
    (result : HotpAdvanceResult × OtpProfilesRepo) : Prop where
  moved : result.1 = .Ok → ∀ id snapshot, expected.lookup id = some snapshot →
    ∃ row, repo.rows id = some row ∧ rowMatches row snapshot = true ∧
      result.2.rows id = some { row with counter := row.counter + 1 }
  cached : result.1 = .Ok → ∀ id snapshot, expected.lookup id = some snapshot →
    ∀ entry, repo.identityMap id = some entry → matchesSnapshot entry snapshot = true ∧
      result.2.identityMap id = some { entry with counter := entry.counter + 1 }
  absent : ∀ id, repo.identityMap id = none → result.2.identityMap id = none
  others : ∀ id, expected.lookup id = none →
    result.2.rows id = repo.rows id ∧ result.2.identityMap id = repo.identityMap id
  refused : result.1 ≠ .Ok → result.2 = repo

theorem AllOrNone.unchanged (repo : OtpProfilesRepo) (expected : Snapshots)
    {result : HotpAdvanceResult} (h : result ≠ .Ok) :
    AllOrNone repo expected (result, repo) where
  moved hok := absurd hok h
  cached hok := absurd hok h
  absent _ hnone := hnone
  others _ _ := ⟨rfl, rfl⟩
  refused _ := rfl

/-- By induction on the loop: the rows behind it are those in front of it, one further. -/
theorem updateRows_ok {fails : Statement → Bool} :
    ∀ {l : List (Σ _ : ℤ, Entry)} {rows rows' : ℤ → Option Entry}, l.NodupKeys →
      updateRows fails l rows = .ok rows' →
      (∀ id snapshot, dlookup id l = some snapshot → ∃ row, rows id = some row ∧
        rowMatches row snapshot = true ∧
        rows' id = some { row with counter := row.counter + 1 }) ∧
      ∀ id, dlookup id l = none → rows' id = rows id
  | [], rows, rows', _, h => by
    cases h
    exact ⟨nofun, fun _ _ => rfl⟩
  | ⟨first, taken⟩ :: later, rows, rows', hnodup, h => by
    rw [nodupKeys_cons] at hnodup
    unfold updateRows at h
    split at h
    · cases h
    · split at h
      · cases h
      · rename_i row hrow
        obtain ⟨hmem, hmatch⟩ := Option.filter_eq_some_iff.mp hrow
        obtain ⟨hmoved, hothers⟩ := updateRows_ok hnodup.2 h
        have hfirst : dlookup first later = none := dlookup_eq_none.mpr hnodup.1
        constructor
        · intro id snapshot hlookup
          by_cases hid : id = first
          · subst hid
            rw [dlookup_cons_eq] at hlookup
            cases hlookup
            refine ⟨row, hmem, hmatch, ?_⟩
            rw [hothers id hfirst, Function.update_self]
          · rw [dlookup_cons_ne later ⟨first, taken⟩ hid] at hlookup
            obtain ⟨row', hrow', hrest⟩ := hmoved id snapshot hlookup
            rw [Function.update_of_ne hid] at hrow'
            exact ⟨row', hrow', hrest⟩
        · intro id hlookup
          have hid : id ≠ first := by
            rintro rfl
            rw [dlookup_cons_eq] at hlookup
            cases hlookup
          rw [dlookup_cons_ne later ⟨first, taken⟩ hid] at hlookup
          rw [hothers id hlookup, Function.update_of_ne hid]

theorem updateRows_error {fails : Statement → Bool} {result : HotpAdvanceResult} :
    ∀ {l : List (Σ _ : ℤ, Entry)} {rows : ℤ → Option Entry},
      updateRows fails l rows = .error result → result ≠ .Ok
  | [], _, h => by cases h
  | ⟨_, _⟩ :: later, _, h => by
    unfold updateRows at h
    split at h
    · cases h
      exact nofun
    · split at h
      · cases h
        split <;> exact nofun
      · exact updateRows_error h

theorem counter_eq_of_matchesSnapshot {profile snapshot : Entry}
    (h : matchesSnapshot profile snapshot = true) : profile.counter = snapshot.counter := by
  unfold matchesSnapshot at h
  simp only [Bool.and_eq_true, decide_eq_true_eq] at h
  exact h.2

theorem counter_eq_of_rowMatches {row snapshot : Entry} (h : rowMatches row snapshot = true) :
    row.counter = snapshot.counter := by
  unfold rowMatches at h
  simp only [Bool.and_eq_true, decide_eq_true_eq] at h
  exact h.2

/-- **All or none, wherever the storage fails.** -/
theorem advance_allOrNone (fails : Statement → Bool) (repo : OtpProfilesRepo)
    (expected : Snapshots) : AllOrNone repo expected (repo.AdvanceHotpCounters fails expected) := by
  unfold AdvanceHotpCounters
  split
  · rename_i hempty
    have hnone : ∀ id, expected.lookup id = none := by
      intro id
      unfold AList.lookup
      rw [hempty, dlookup_nil]
    exact
      { moved := fun _ id snapshot h => absurd (h.symm.trans (hnone id)) nofun
        cached := fun _ id snapshot h => absurd (h.symm.trans (hnone id)) nofun
        absent := fun _ h => h
        others := fun _ _ => ⟨rfl, rfl⟩
        refused := fun _ => rfl }
  · split
    · exact AllOrNone.unchanged repo expected nofun
    · rename_i hlive
      split
      · exact AllOrNone.unchanged repo expected nofun
      · split
        · rename_i hrows
          exact AllOrNone.unchanged repo expected (updateRows_error hrows)
        · rename_i rows hrows
          obtain ⟨hmoved, hothers⟩ := updateRows_ok expected.nodupKeys hrows
          split
          · exact AllOrNone.unchanged repo expected nofun
          · refine
              { moved := fun _ => hmoved
                cached := fun _ id snapshot hlookup entry hentry => ?_
                absent := fun id hnone => ?_
                others := fun id hnone => ⟨hothers id hnone, ?_⟩
                refused := fun h => absurd rfl h }
            · -- The check in front of the transaction saw the same entry.
              have hmatch : matchesSnapshot entry snapshot = true := by
                by_contra hne
                apply hlive
                refine any_eq_true.mpr ⟨_, AList.mem_lookup_iff.mp hlookup, ?_⟩
                rw [hentry, Option.any_some, eq_false_of_ne_true hne, Bool.not_false]
              refine ⟨hmatch, ?_⟩
              simp [advanceCached, hlookup, hentry, hmatch, counter_eq_of_matchesSnapshot hmatch]
            · change advanceCached expected repo.identityMap id = none
              unfold advanceCached
              split
              · exact hnone
              · rw [hnone]
                rfl
            · simp [advanceCached, hnone]

/-! ## Counters that are behind -/

/-- The table and the memory are past a counter. -/
structure Past (repo : OtpProfilesRepo) (id counter : ℤ) : Prop where
  row : ∃ row, repo.rows id = some row ∧ counter < row.counter
  cached : ∀ entry, repo.identityMap id = some entry → counter < entry.counter

variable {repo : OtpProfilesRepo} {id counter : ℤ}

theorem Past.got (h : repo.Past id counter) {repo' : OtpProfilesRepo} {entry : Entry}
    (hget : repo.GetOtpProfile id = (some entry, repo')) : counter < entry.counter := by
  unfold GetOtpProfile at hget
  split at hget
  · rename_i shared hshared
    cases hget
    exact h.cached _ hshared
  · split at hget
    · cases hget
    · rename_i row hrow
      cases hget
      obtain ⟨row', hrow', hlt⟩ := h.row
      rw [hrow] at hrow'
      cases hrow'
      exact hlt

theorem Past.getOtpProfile (h : repo.Past id counter) (other : ℤ) :
    (repo.GetOtpProfile other).2.Past id counter := by
  unfold GetOtpProfile
  split
  · exact h
  · split
    · exact h
    · rename_i row hrow
      refine ⟨h.row, fun entry hentry => ?_⟩
      simp only [Function.update_apply] at hentry
      split at hentry
      · rename_i hid
        cases hentry
        obtain ⟨row', hrow', hlt⟩ := h.row
        rw [hid, hrow] at hrow'
        cases hrow'
        exact hlt
      · exact h.cached entry hentry

theorem Past.release (h : repo.Past id counter) (other : ℤ) :
    (repo.release other).Past id counter := by
  refine ⟨h.row, fun entry hentry => ?_⟩
  simp only [OtpProfilesRepo.release, Function.update_apply] at hentry
  split at hentry
  · cases hentry
  · exact h.cached entry hentry

theorem Past.advance (h : repo.Past id counter) (fails : Statement → Bool)
    (expected : Snapshots) : (repo.AdvanceHotpCounters fails expected).2.Past id counter := by
  have hall := advance_allOrNone fails repo expected
  by_cases hok : (repo.AdvanceHotpCounters fails expected).1 = .Ok
  · cases hlookup : expected.lookup id with
    | none =>
      obtain ⟨hrows, hmap⟩ := hall.others id hlookup
      constructor
      · rw [hrows]
        exact h.row
      · rw [hmap]
        exact h.cached
    | some snapshot =>
      constructor
      · obtain ⟨row, hrow, -, hnext⟩ := hall.moved hok id snapshot hlookup
        obtain ⟨row', hrow', hlt⟩ := h.row
        rw [hrow] at hrow'
        cases hrow'
        exact ⟨_, hnext, Int.lt_add_one_of_le hlt.le⟩
      · intro entry hentry
        cases hmap : repo.identityMap id with
        | none =>
          rw [hall.absent id hmap] at hentry
          cases hentry
        | some held =>
          rw [(hall.cached hok id snapshot hlookup held hmap).2] at hentry
          cases hentry
          exact Int.lt_add_one_of_le (h.cached held hmap).le
  · rw [hall.refused hok]
    exact h

/-- A counter that a commit has moved is behind. -/
theorem AllOrNone.past {expected : Snapshots} {result : HotpAdvanceResult × OtpProfilesRepo}
    (h : AllOrNone repo expected result) (hok : result.1 = .Ok) {snapshot : Entry}
    (hlookup : expected.lookup id = some snapshot) : result.2.Past id snapshot.counter := by
  constructor
  · obtain ⟨row, -, hmatch, hnext⟩ := h.moved hok id snapshot hlookup
    refine ⟨_, hnext, ?_⟩
    rw [← counter_eq_of_rowMatches hmatch]
    exact Int.lt_succ _
  · intro entry hentry
    cases hmap : repo.identityMap id with
    | none =>
      rw [h.absent id hmap] at hentry
      cases hentry
    | some held =>
      obtain ⟨hmatch, hnext⟩ := h.cached hok id snapshot hlookup held hmap
      rw [hnext] at hentry
      cases hentry
      rw [← counter_eq_of_matchesSnapshot hmatch]
      exact Int.lt_succ _

end OtpProfilesRepo

namespace OtpCodeSession

open OtpProfilesRepo

variable {repo : OtpProfilesRepo} {id counter : ℤ}

theorem past_resolve (h : repo.Past id counter) (hash : Mac) (now : ℤ) (session : OtpCodeSession)
    (otpProfileId : ℤ) : (session.Resolve hash now repo otpProfileId).2.1.Past id counter := by
  have hget := h.getOtpProfile otpProfileId
  unfold Resolve
  split
  · exact h
  · split
    · exact h
    · split
      · rename_i hrepo
        rw [hrepo] at hget
        exact hget
      · rename_i hrepo
        rw [hrepo] at hget
        split <;> exact hget

theorem past_commit (h : repo.Past id counter) (fails : Statement → Bool)
    (session : OtpCodeSession) : (session.Commit fails repo).2.1.Past id counter := by
  have hadvance := h.advance fails session.hotpProfiles
  unfold Commit
  split
  · exact h
  · split <;> (rename_i hrepo; rw [hrepo] at hadvance; exact hadvance)

/-- **A commit without an error is past the counters of its codes.** -/
theorem commit_past {fails : Statement → Bool} {session : OtpCodeSession} {snapshot : Entry}
    (hok : (session.Commit fails repo).1 = "")
    (hlookup : session.hotpProfiles.lookup id = some snapshot) :
    (session.Commit fails repo).2.1.Past id snapshot.counter := by
  have hall := advance_allOrNone fails repo session.hotpProfiles
  unfold Commit at hok ⊢
  split at hok
  · rename_i hempty
    unfold AList.lookup at hlookup
    rw [hempty, dlookup_nil] at hlookup
    cases hlookup
  · rename_i hsome
    rw [if_neg hsome]
    split at hok
    · simp at hok
    · simp at hok
    · rename_i hrepo
      rw [hrepo] at hall
      exact hall.past rfl hlookup

end OtpCodeSession

end Throned.OTP
