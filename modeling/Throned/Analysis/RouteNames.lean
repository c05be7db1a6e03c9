import Throned.Model.AppRoutes

/-!
# The names of an entry's rules

An owned rule is read by its name: the prefix, the entry's id and one of two suffixes or none.
The name of an entry's addresses has no suffix unless the id is `process` or `process-path`, since
the prefix ends in the colon that both suffixes start with.
-/

set_option autoImplicit false

namespace Throned.Routes

open Throned.Library

/-- The parts of an entry's name, as the rules have them. -/
inductive NameKind where
  | addresses
  | processes
  | processPaths
  deriving DecidableEq, Repr

def NameKind.ending : NameKind → Text
  | .addresses => []
  | .processes => ProcessSuffix
  | .processPaths => ProcessPathSuffix

/-- What a rule with the name is taken for. -/
def nameKind (name : Text) : NameKind :=
  if ProcessSuffix.isSuffixOf name then .processes
  else if ProcessPathSuffix.isSuffixOf name then .processPaths
  else .addresses

def processId : Text := ['p', 'r', 'o', 'c', 'e', 's', 's']

def processPathId : Text := processId ++ ['-', 'p', 'a', 't', 'h']

/-- The ids that make the name of an entry's addresses end in a suffix. -/
def ReadsAsProcess (id : Text) : Prop := id = processId ∨ id = processPathId

instance (id : Text) : Decidable (ReadsAsProcess id) := instDecidableOr

theorem RulePrefix_eq : ∃ start, RulePrefix = start ++ [':'] :=
  ⟨['t', 'h', 'r', 'o', 'n', 'e', 'd', '-', 'a', 'p', 'p'], rfl⟩

/-- Two texts behind the last colon of one text are the same. -/
theorem colon_suffix_iff {a x y : Text} (hx : ':' ∉ x) (hy : ':' ∉ y) :
    ':' :: x <:+ a ++ ':' :: y ↔ x = y := by
  constructor
  · intro h
    rcases List.suffix_or_suffix_of_suffix h (List.suffix_append a _) with hxy | hyx
    · rcases List.suffix_cons_iff.mp hxy with heq | hin
      · exact (List.cons.inj heq).2
      · exact absurd (hin.subset List.mem_cons_self) hy
    · rcases List.suffix_cons_iff.mp hyx with heq | hin
      · exact (List.cons.inj heq).2.symm
      · exact absurd (hin.subset List.mem_cons_self) hx
  · rintro rfl
    exact List.suffix_append a _

theorem ProcessSuffix_eq : ProcessSuffix = ':' :: processId := rfl

theorem ProcessPathSuffix_eq : ProcessPathSuffix = ':' :: processPathId := rfl

theorem colon_notMem_processId : ':' ∉ processId := by decide

theorem colon_notMem_processPathId : ':' ∉ processPathId := by decide

/-- The kind of a text with one more colon, by what is behind it. -/
theorem nameKind_colon (a : Text) {x : Text} (hx : ':' ∉ x) :
    nameKind (a ++ ':' :: x) =
      if x = processId then .processes else if x = processPathId then .processPaths
      else .addresses := by
  unfold nameKind
  simp only [List.isSuffixOf_iff_suffix, ProcessSuffix_eq, ProcessPathSuffix_eq]
  simp only [colon_suffix_iff colon_notMem_processId hx,
    colon_suffix_iff colon_notMem_processPathId hx, eq_comm (a := x)]

theorem nameKind_processes (name : Text) : nameKind (name ++ ProcessSuffix) = .processes :=
  nameKind_colon name colon_notMem_processId

theorem nameKind_processPaths (name : Text) :
    nameKind (name ++ ProcessPathSuffix) = .processPaths :=
  nameKind_colon name colon_notMem_processPathId

/-- **The name of an entry's addresses** reads as one of processes for two ids. -/
theorem nameKind_addresses {id : Text} (hid : ':' ∉ id) :
    nameKind (RulePrefix ++ id) = .addresses ↔ ¬ ReadsAsProcess id := by
  obtain ⟨start, hstart⟩ := RulePrefix_eq
  have hname : RulePrefix ++ id = start ++ ':' :: id := by
    rw [hstart, List.append_assoc, List.singleton_append]
  rw [hname, nameKind_colon start hid]
  unfold ReadsAsProcess
  split
  · rename_i heq
    exact iff_of_false (by simp) fun h => h (.inl heq)
  · rename_i hne
    split
    · rename_i heq
      exact iff_of_false (by simp) fun h => h (.inr heq)
    · rename_i hne'
      exact iff_of_true rfl fun h => h.elim hne hne'

theorem nameKind_readsAsProcess {id : Text} (h : ReadsAsProcess id) :
    nameKind (RulePrefix ++ id) ≠ .addresses := by
  have hid : ':' ∉ id := by
    rcases h with rfl | rfl
    · exact colon_notMem_processId
    · exact colon_notMem_processPathId
  exact fun hname => (nameKind_addresses hid).mp hname h

/-! ## The id behind a name -/

theorem chopSuffix_of_not {text ending : Text} (h : ¬ ending <:+ text) :
    chopSuffix text ending = text := if_neg (by simpa using h)

theorem chopSuffix_append (text ending : Text) : chopSuffix (text ++ ending) ending = text := by
  unfold chopSuffix
  rw [if_pos (by simp), List.length_append, Nat.add_sub_cancel, List.take_left]

theorem nameKind_of_suffix {name id : Text} (hname : name = RulePrefix ++ id)
    (h : nameKind name = .addresses) : ¬ ProcessSuffix <:+ id ∧ ¬ ProcessPathSuffix <:+ id := by
  have hlift : ∀ ending : Text, ending <:+ id → ending <:+ name := fun ending hend =>
    hname ▸ hend.trans (List.suffix_append RulePrefix id)
  unfold nameKind at h
  split at h
  · cases h
  · rename_i hprocess
    split at h
    · cases h
    · rename_i hpath
      exact ⟨fun hend => hprocess (List.isSuffixOf_iff_suffix.mpr (hlift _ hend)),
        fun hend => hpath (List.isSuffixOf_iff_suffix.mpr (hlift _ hend))⟩

theorem routeId_eq {rule : RouteRule} {id : Text} (hname : rule.name = RulePrefix ++ id) :
    routeId rule = chopSuffix (chopSuffix id ProcessSuffix) ProcessPathSuffix := by
  unfold routeId
  rw [hname, List.drop_left]

/-- A rule of addresses has its id behind the prefix. -/
theorem name_of_addresses {rule : RouteRule} (hstarts : RulePrefix <+: rule.name)
    (h : nameKind rule.name = .addresses) : rule.name = RulePrefix ++ routeId rule := by
  obtain ⟨id, hid⟩ := hstarts
  have hends := nameKind_of_suffix hid.symm h
  rw [routeId_eq hid.symm, chopSuffix_of_not hends.1, chopSuffix_of_not hends.2, hid]

theorem not_suffix_of_colon_notMem {id ending : Text} (hid : ':' ∉ id) (hend : ':' ∈ ending) :
    ¬ ending <:+ id := fun h => hid (h.subset hend)

/-- **The rules of an id without a colon have that id.** -/
theorem routeId_ending {rule : RouteRule} {id : Text} (hid : ':' ∉ id) (kind : NameKind)
    (hname : rule.name = RulePrefix ++ id ++ kind.ending) : routeId rule = id := by
  rw [List.append_assoc] at hname
  rw [routeId_eq hname]
  have hpath : ¬ ProcessPathSuffix <:+ id := not_suffix_of_colon_notMem hid (by decide)
  cases kind with
  | addresses =>
    have hprocess : ¬ ProcessSuffix <:+ id := not_suffix_of_colon_notMem hid (by decide)
    rw [NameKind.ending, List.append_nil, chopSuffix_of_not hprocess, chopSuffix_of_not hpath]
  | processes =>
    rw [NameKind.ending, chopSuffix_append, chopSuffix_of_not hpath]
  | processPaths =>
    have hprocess : ¬ ProcessSuffix <:+ id ++ ProcessPathSuffix := by
      rw [ProcessSuffix_eq, ProcessPathSuffix_eq,
        colon_suffix_iff colon_notMem_processId colon_notMem_processPathId]
      decide
    rw [NameKind.ending, chopSuffix_of_not hprocess, chopSuffix_append]

end Throned.Routes
