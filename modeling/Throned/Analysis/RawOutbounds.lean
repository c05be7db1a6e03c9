import Throned.Model.RawRoutes

/-!
# The outbounds of raw routes

The three walks find the same places.  Translation and import rewrite the numbers there, and
leave every other place as it is.
-/

set_option autoImplicit false

namespace Throned.Routes

open Throned.Library
open Throned.Library.Json (Step Targets Rewrites)

/-! ## Places -/

/-- The members that name a profile by number. -/
def outboundNumbers : Targets where
  isTarget s v :=
    match s with
    | .member _ key => isOutboundNumber key v
    | .item _ => false
  scalar s v h := by
    cases s with
    | item => cases h
    | member i key =>
      have hdouble := (Bool.and_eq_true_iff.mp h).2
      cases v with
      | num | double => rfl
      | null | bool | str | arr | obj => cases hdouble
  shape s v w h := by
    cases s with
    | item => rfl
    | member i key =>
      cases v <;> cases w <;> first | rfl | cases h

/-- The id of a place that names a profile by number. -/
def outboundAt (j : Json) (p : List Step) : Option ℤ :=
  (j.targetAt outboundNumbers p).map jsonToInt

/-! ## Translation -/

theorem translateItems_eq (outboundMap : ℤ → Option Text) (items : List Json) :
    translateItems outboundMap items = items.map (translateRawOutboundsRec outboundMap) := by
  induction items with
  | nil => rw [translateItems, List.map_nil]
  | cons e items ih => rw [translateItems, ih, List.map_cons]

/-- The tag that an id becomes. -/
def tagOf (outboundMap : ℤ → Option Text) (v : Json) : Json :=
  .str ((outboundMap (jsonToInt v)).getD proxyTag)

theorem translateMembers_eq (outboundMap : ℤ → Option Text) (o : List (String × Json)) :
    translateMembers outboundMap o = o.map fun m =>
      (m.1, if isOutboundNumber m.1 m.2 then tagOf outboundMap m.2
        else translateRawOutboundsRec outboundMap m.2) := by
  induction o with
  | nil => rw [translateMembers, List.map_nil]
  | cons m o ih =>
    rw [translateMembers, ih, List.map_cons]
    rfl

theorem translate_rewrites (outboundMap : ℤ → Option Text) :
    Rewrites outboundNumbers (tagOf outboundMap) (translateRawOutboundsRec outboundMap) where
  scalar _ := rfl
  shape j := by
    cases j with
    | arr items =>
      simp only [translateRawOutboundsRec, translateItems_eq, Json.shape, List.map_map]
      rfl
    | obj o =>
      simp only [translateRawOutboundsRec, translateMembers_eq, Json.shape, List.map_map]
      rfl
    | null | bool | num | double | str => rw [translateRawOutboundsRec] <;> simp
  child j s := by
    cases j with
    | arr items =>
      cases s with
      | item i =>
        simp only [translateRawOutboundsRec, translateItems_eq, Json.child, List.getElem?_map]
        rfl
      | member i key => rfl
    | obj o =>
      cases s with
      | item i => rfl
      | member i key =>
        simp only [translateRawOutboundsRec, translateMembers_eq]
        exact Json.child_map_members (fun key v =>
          if isOutboundNumber key v then tagOf outboundMap v
          else translateRawOutboundsRec outboundMap v) o i key
    | null | bool | num | double | str =>
      rw [translateRawOutboundsRec] <;> cases s <;> simp [Json.child]

/-! ## Import -/

theorem remap_fst (env : Importing) (warnings warnings' : Text) (id : ℤ) :
    (env.remap warnings id).1 = (env.remap warnings' id).1 := by
  unfold Importing.remap
  split
  · rfl
  · dsimp only
    split
    · rfl
    · rfl

/-- A node without the warnings. -/
def remapped (env : Importing) (j : Json) : Json := (remapRawOutboundsByNameRec env [] j).1

/-- The number that an id becomes. -/
def localOf (env : Importing) (v : Json) : Json := .num (env.remap [] (jsonToInt v)).1

theorem remapItems_of (env : Importing) {items : List Json}
    (hitems : ∀ v ∈ items, ∀ warnings,
      (remapRawOutboundsByNameRec env warnings v).1 = remapped env v) :
    ∀ warnings, (remapItems env warnings items).1 = items.map (remapped env) := by
  induction items with
  | nil =>
    intro warnings
    rw [remapItems, List.map_nil]
  | cons e items ih =>
    intro warnings
    rw [remapItems, List.map_cons]
    dsimp only
    rw [hitems e List.mem_cons_self, ih fun v hv => hitems v (List.mem_cons_of_mem e hv)]

theorem remapMembers_of (env : Importing) {o : List (String × Json)}
    (hmembers : ∀ m ∈ o, ∀ warnings,
      (remapRawOutboundsByNameRec env warnings m.2).1 = remapped env m.2) :
    ∀ warnings, (remapMembers env warnings o).1 = o.map fun m =>
      (m.1, if isOutboundNumber m.1 m.2 then localOf env m.2 else remapped env m.2) := by
  induction o with
  | nil =>
    intro warnings
    rw [remapMembers, List.map_nil]
  | cons m o ih =>
    intro warnings
    have hlater := ih fun v hv => hmembers v (List.mem_cons_of_mem m hv)
    rw [remapMembers, List.map_cons]
    split
    · dsimp only
      rw [hlater, remap_fst env warnings []]
      rfl
    · dsimp only
      rw [hlater, hmembers m List.mem_cons_self]

/-- What is remapped does not depend on the warnings. -/
theorem remapRec_fst (env : Importing) (j : Json) :
    ∀ warnings, (remapRawOutboundsByNameRec env warnings j).1 = remapped env j := by
  induction j using Json.parts_induction with
  | null | bool | num | double | str =>
    intro warnings
    simp only [remapped, remapRawOutboundsByNameRec]
  | arr items hitems =>
    intro warnings
    simp only [remapped, remapRawOutboundsByNameRec]
    rw [remapItems_of env hitems, remapItems_of env hitems]
  | obj o hmembers =>
    intro warnings
    simp only [remapped, remapRawOutboundsByNameRec]
    rw [remapMembers_of env hmembers, remapMembers_of env hmembers]

theorem remapItems_eq (env : Importing) (items : List Json) (warnings : Text) :
    (remapItems env warnings items).1 = items.map (remapped env) :=
  remapItems_of env (fun v _ => remapRec_fst env v) warnings

theorem remapMembers_eq (env : Importing) (o : List (String × Json)) (warnings : Text) :
    (remapMembers env warnings o).1 = o.map fun m =>
      (m.1, if isOutboundNumber m.1 m.2 then localOf env m.2 else remapped env m.2) :=
  remapMembers_of env (fun m _ => remapRec_fst env m.2) warnings

theorem remap_rewrites (env : Importing) :
    Rewrites outboundNumbers (localOf env) (remapped env) where
  scalar _ := rfl
  shape j := by
    cases j with
    | arr items =>
      simp only [remapped, remapRawOutboundsByNameRec, remapItems_eq, Json.shape, List.map_map]
      rfl
    | obj o =>
      simp only [remapped, remapRawOutboundsByNameRec, remapMembers_eq, Json.shape, List.map_map]
      rfl
    | null | bool | num | double | str =>
      rw [remapped, remapRawOutboundsByNameRec] <;> simp
  child j s := by
    cases j with
    | arr items =>
      cases s with
      | item i =>
        simp only [remapped, remapRawOutboundsByNameRec, remapItems_eq, Json.child,
          List.getElem?_map]
        rfl
      | member i key => rfl
    | obj o =>
      cases s with
      | item i => rfl
      | member i key =>
        have hmembers : remapped env (.obj o) = .obj (o.map fun m =>
            (m.1, if isOutboundNumber m.1 m.2 then localOf env m.2 else remapped env m.2)) := by
          rw [remapped, remapRawOutboundsByNameRec]
          exact congrArg Json.obj (remapMembers_eq env o [])
        rw [hmembers]
        exact Json.child_map_members (fun key v =>
          if isOutboundNumber key v then localOf env v else remapped env v) o i key
    | null | bool | num | double | str =>
      rw [remapped, remapRawOutboundsByNameRec] <;> cases s <;> simp [Json.child]

/-! ## Collection -/

/-- An id that some place names. -/
def Names (j : Json) (id : ℤ) : Prop := ∃ p, outboundAt j p = some id

theorem outboundAt_cons (j : Json) (s : Step) (p : List Step) :
    outboundAt j (s :: p) = (j.child s).bind fun v =>
      if p = [] ∧ outboundNumbers.isTarget s v = true then some (jsonToInt v)
      else outboundAt v p := by
  unfold outboundAt
  rw [Json.targetAt]
  cases j.child s with
  | none => rfl
  | some v =>
    simp only [Option.bind_some]
    split
    · rfl
    · rfl

theorem names_of_isScalar {j : Json} (h : j.isScalar = true) (id : ℤ) : ¬Names j id := by
  rintro ⟨p, hp⟩
  rw [outboundAt, Json.targetAt_of_isScalar h] at hp
  cases hp

theorem names_iff_child {j : Json} {id : ℤ} :
    Names j id ↔ ∃ s v, j.child s = some v ∧
      if outboundNumbers.isTarget s v = true then jsonToInt v = id else Names v id := by
  constructor
  · rintro ⟨p, hp⟩
    cases p with
    | nil => cases hp
    | cons s p =>
      rw [outboundAt_cons] at hp
      obtain ⟨v, hv, hid⟩ := Option.bind_eq_some_iff.mp hp
      refine ⟨s, v, hv, ?_⟩
      by_cases htarget : outboundNumbers.isTarget s v = true
      · rw [if_pos htarget]
        by_cases hend : p = []
        · rw [if_pos ⟨hend, htarget⟩] at hid
          exact Option.some.inj hid
        · rw [if_neg (fun h => hend h.1)] at hid
          exact absurd ⟨p, hid⟩ (names_of_isScalar (outboundNumbers.scalar s v htarget) id)
      · rw [if_neg htarget]
        rw [if_neg (fun h => htarget h.2)] at hid
        exact ⟨p, hid⟩
  · rintro ⟨s, v, hv, hid⟩
    by_cases htarget : outboundNumbers.isTarget s v = true
    · rw [if_pos htarget] at hid
      refine ⟨[s], ?_⟩
      rw [outboundAt_cons, hv, Option.bind_some, if_pos ⟨rfl, htarget⟩, hid]
    · rw [if_neg htarget] at hid
      obtain ⟨p, hp⟩ := hid
      refine ⟨s :: p, ?_⟩
      rw [outboundAt_cons, hv, Option.bind_some, if_neg (fun h => htarget h.2), hp]

theorem names_arr_iff {items : List Json} {id : ℤ} :
    Names (.arr items) id ↔ ∃ v ∈ items, Names v id := by
  rw [names_iff_child]
  constructor
  · rintro ⟨s, v, hv, hid⟩
    cases s with
    | member => cases hv
    | item i => exact ⟨v, List.mem_of_getElem? hv, hid⟩
  · rintro ⟨v, hv, hid⟩
    obtain ⟨i, hi⟩ := List.mem_iff_getElem?.mp hv
    exact ⟨.item i, v, hi, hid⟩

theorem names_obj_iff {o : List (String × Json)} {id : ℤ} :
    Names (.obj o) id ↔ ∃ m ∈ o,
      if isOutboundNumber m.1 m.2 then jsonToInt m.2 = id else Names m.2 id := by
  rw [names_iff_child]
  constructor
  · rintro ⟨s, v, hv, hid⟩
    cases s with
    | item => cases hv
    | member i key =>
      obtain ⟨m, hm, rfl⟩ := Option.map_eq_some_iff.mp hv
      obtain ⟨hi, hkey⟩ := Option.filter_eq_some_iff.mp hm
      obtain rfl := of_decide_eq_true hkey
      exact ⟨m, List.mem_of_getElem? hi, hid⟩
  · rintro ⟨m, hm, hid⟩
    obtain ⟨i, hi⟩ := List.mem_iff_getElem?.mp hm
    refine ⟨.member i m.1, m.2, ?_, hid⟩
    rw [Json.child, hi]
    simp [Option.filter]

theorem mem_collectItems_of {items : List Json} {id : ℤ}
    (hitems : ∀ v ∈ items, ∀ out, id ∈ collectRawOutboundIdsRec out v ↔ id ∈ out ∨ Names v id) :
    ∀ out, id ∈ collectItems out items ↔ id ∈ out ∨ ∃ v ∈ items, Names v id := by
  induction items with
  | nil =>
    intro out
    simp [collectItems]
  | cons e items ih =>
    intro out
    rw [collectItems, ih fun v hv => hitems v (List.mem_cons_of_mem e hv),
      hitems e List.mem_cons_self]
    simp only [List.mem_cons, exists_eq_or_imp, or_assoc]

theorem mem_collectMembers_of {o : List (String × Json)} {id : ℤ}
    (hmembers : ∀ m ∈ o, ∀ out,
      id ∈ collectRawOutboundIdsRec out m.2 ↔ id ∈ out ∨ Names m.2 id) :
    ∀ out, id ∈ collectMembers out o ↔ id ∈ out ∨ ∃ m ∈ o,
      if isOutboundNumber m.1 m.2 then jsonToInt m.2 = id else Names m.2 id := by
  induction o with
  | nil =>
    intro out
    simp [collectMembers]
  | cons m o ih =>
    intro out
    have hlater := ih fun v hv => hmembers v (List.mem_cons_of_mem m hv)
    rw [collectMembers]
    by_cases hnumber : isOutboundNumber m.1 m.2 = true
    · rw [if_pos hnumber, hlater]
      simp only [List.mem_cons, exists_eq_or_imp, hnumber, if_true]
      by_cases hknown : jsonToInt m.2 ∈ out
      · rw [if_pos hknown]
        constructor
        · exact fun h => h.imp_right Or.inr
        · rintro (h | rfl | h)
          · exact .inl h
          · exact .inl hknown
          · exact .inr h
      · rw [if_neg hknown]
        simp only [List.mem_append, List.mem_singleton, or_assoc, eq_comm]
    · rw [if_neg hnumber, hlater, hmembers m List.mem_cons_self]
      simp only [List.mem_cons, exists_eq_or_imp, hnumber, Bool.false_eq_true, if_false, or_assoc]

/-- **The ids that are collected are those of the places.** -/
theorem mem_collect_iff (j : Json) {id : ℤ} :
    ∀ out, id ∈ collectRawOutboundIdsRec out j ↔ id ∈ out ∨ Names j id := by
  induction j using Json.parts_induction with
  | null | bool | num | double | str =>
    intro out
    rw [collectRawOutboundIdsRec, or_iff_left (names_of_isScalar rfl id)] <;> simp
  | arr items hitems =>
    intro out
    rw [collectRawOutboundIdsRec, names_arr_iff]
    exact mem_collectItems_of hitems out
  | obj o hmembers =>
    intro out
    rw [collectRawOutboundIdsRec, names_obj_iff]
    exact mem_collectMembers_of hmembers out

/-! ## The three walks -/

/-- **The walks meet at the same places.**  Where the map is defined on the collected ids, the
translation puts their tags in the place of the numbers and keeps the rest, so that no number is
left; an import puts local numbers in the same places and keeps the rest. -/
theorem raw_outbounds (route : JsonObject) (outboundMap : ℤ → Option Text) (env : Importing)
    (warnings : Text) (hmap : ∀ id ∈ CollectRawOutboundIds route, (outboundMap id).isSome = true) :
    (∀ id, id ∈ CollectRawOutboundIds route ↔ ∃ p, outboundAt (.obj route) p = some id) ∧
      (∀ p, ((Json.obj (TranslateRawOutbounds route outboundMap)).valueAt p).map Json.shape =
        match outboundAt (.obj route) p with
        | some id => (outboundMap id).map Json.str
        | none => ((Json.obj route).valueAt p).map Json.shape) ∧
      (∀ p, outboundAt (.obj (TranslateRawOutbounds route outboundMap)) p = none) ∧
      ∀ p, ((Json.obj (remapRawOutboundsByName env warnings route).1).valueAt p).map Json.shape =
        match outboundAt (.obj route) p with
        | some id => some (.num (env.remap [] id).1)
        | none => ((Json.obj route).valueAt p).map Json.shape := by
  have hcollect : ∀ id, id ∈ CollectRawOutboundIds route ↔ Names (.obj route) id := by
    intro id
    rw [CollectRawOutboundIds, mem_collect_iff]
    simp
  have htranslated : Json.obj (TranslateRawOutbounds route outboundMap) =
      translateRawOutboundsRec outboundMap (.obj route) := by
    rw [translateRawOutboundsRec]
    rfl
  have hremapped : Json.obj (remapRawOutboundsByName env warnings route).1 =
      remapped env (.obj route) := by
    rw [← remapRec_fst env _ warnings, remapRawOutboundsByNameRec]
    rfl
  refine ⟨hcollect, fun p => ?_, fun p => ?_, fun p => ?_⟩
  · have hp := (translate_rewrites outboundMap).shapeAt p (.obj route)
    rw [htranslated, hp, outboundAt]
    cases hv : (Json.obj route).targetAt outboundNumbers p with
    | none => rfl
    | some v =>
      have hid := hmap (jsonToInt v) ((hcollect _).mpr ⟨p, by rw [outboundAt, hv]; rfl⟩)
      obtain ⟨tag, htag⟩ := Option.isSome_iff_exists.mp hid
      simp [tagOf, htag]
  · have hp := (translate_rewrites outboundMap).targetAt false
      (fun s v _ => by cases s <;> simp [outboundNumbers, tagOf, isOutboundNumber, isDouble])
      p (.obj route)
    rw [htranslated, outboundAt, hp]
    rfl
  · have hp := (remap_rewrites env).shapeAt p (.obj route)
    rw [hremapped, hp, outboundAt]
    cases (Json.obj route).targetAt outboundNumbers p with
    | none => rfl
    | some v => rfl

/-- A route with numbers at two depths, one of them twice, and a tag. -/
def nestedRoute : JsonObject :=
  [("final", .num 7),
    ("rules", .arr [.obj [("outbound", .num (-2)), ("port", .num 53)],
      .obj [("outbound", .str proxyTag), ("rules", .arr [.obj [("outbound", .num 7)]])]])]

theorem raw_outbounds_nestedRoute :
    CollectRawOutboundIds nestedRoute = [7, -2] ∧
      ∀ p, outboundAt (.obj (TranslateRawOutbounds nestedRoute fun id => some (decimal id.natAbs)))
        p = none :=
  ⟨by decide +kernel, (raw_outbounds nestedRoute (fun id => some (decimal id.natAbs))
    ⟨[], fun _ => none⟩ [] (fun _ _ => rfl)).2.2.1⟩

end Throned.Routes
