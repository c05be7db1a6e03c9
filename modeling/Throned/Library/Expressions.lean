import Throned.Library.Utf8Runes

/-!
# Regular expressions with groups

The matches of an expression at a position, the one that Perl and Go prefer first: the left
alternative before the right one, and as many repetitions as there are before fewer.  `find` is the
match at the first position that has one.
-/

set_option autoImplicit false

namespace Throned.Library

inductive Expression
  | empty
  | rune (p : Char → Bool)
  | wordBoundary
  | seq (a b : Expression)
  | alt (a b : Expression)
  | star (a : Expression)
  /-- Groups are not nested, and none is repeated. -/
  | group (a : Expression)

/-- A place in a text: the character before, the runes from there on and what the groups that are
passed have taken. -/
structure Position where
  before : Option Char
  rest : List Rune
  groups : List ByteText

namespace Expression

def isWord : Option Char → Bool
  | none => false
  | some c => c.isAlphanum || c = '_'

/-- The places after any number of steps that take something, the farthest first. -/
def repeatFrom (step : Position → List Position) : ℕ → Position → List Position
  | 0, s => [s]
  | n + 1, s =>
    ((step s).filter fun t => t.rest.length < s.rest.length).flatMap (repeatFrom step n) ++ [s]

/-- The places after a match, the preferred one first. -/
def run : Expression → Position → List Position
  | empty, s => [s]
  | rune p, s =>
    match s.rest with
    | [] => []
    | r :: rest => if p r.value then [⟨some r.value, rest, s.groups⟩] else []
  | wordBoundary, s =>
    if isWord s.before = isWord (s.rest.head?.map (·.value)) then [] else [s]
  | seq a b, s => (run a s).flatMap (run b)
  | alt a b, s => run a s ++ run b s
  | star a, s => repeatFrom (run a) s.rest.length s
  | group a, s =>
    (run a s).map fun t =>
      { t with groups := t.groups ++ [bytesOf (s.rest.take (s.rest.length - t.rest.length))] }

def findFrom (e : Expression) : Option Char → List Rune → Option Position
  | before, [] => (e.run ⟨before, [], []⟩).head?
  | before, r :: rest =>
    match (e.run ⟨before, r :: rest, []⟩).head? with
    | some found => some found
    | none => findFrom e (some r.value) rest

/-- What the groups take in the first match. -/
def findSubmatch (e : Expression) (text : ByteText) : Option (List ByteText) :=
  (findFrom e none (runes text)).map (·.groups)

/-! ## Parts of expressions -/

def plus (a : Expression) : Expression := seq a (star a)

def opt (a : Expression) : Expression := alt a empty

def seqs (es : List Expression) : Expression := es.foldr seq empty

def literal (text : List Char) : Expression := seqs (text.map fun c => rune (· = c))

/-- The characters that fold to a small ASCII character. -/
def foldsTo (small c : Char) : Bool :=
  c.toLower = small || (small = 'k' && c = '\u212a') || (small = 's' && c = '\u017f')

/-- A literal under `(?i)`. -/
def folded (text : List Char) : Expression := seqs (text.map fun c => rune (foldsTo c))

def digit : Expression := rune Char.isDigit

/-- `\s` -/
def isBlank (c : Char) : Bool := c = ' ' || c = '\t' || c = '\n' || c = '\x0c' || c = '\r'

def blank : Expression := rune isBlank

def except (cs : List Char) : Expression := rune fun c => c ∉ cs

/-! ## What a match takes -/

/-- What a step keeps, its repetitions keep. -/
theorem repeatFrom_induction {R : Position → Position → Prop} (refl : ∀ s, R s s)
    (trans : ∀ s t u, R s t → R t u → R s u) {step : Position → List Position}
    (hstep : ∀ s, ∀ t ∈ step s, R s t) : ∀ n s, ∀ t ∈ repeatFrom step n s, R s t := by
  intro n
  induction n with
  | zero =>
    intro s t ht
    rw [List.mem_singleton.mp ht]
    exact refl s
  | succ n ih =>
    intro s t ht
    rcases List.mem_append.mp ht with hmore | hdone
    · obtain ⟨u, hu, htu⟩ := List.mem_flatMap.mp hmore
      exact trans s u t (hstep s u (List.mem_filter.mp hu).1) (ih u t htu)
    · rw [List.mem_singleton.mp hdone]
      exact refl s

/-- A rune is taken from the front. -/
theorem eq_of_mem_run_rune {p : Char → Bool} {s t : Position} (h : t ∈ (rune p).run s) :
    ∃ r rest, s.rest = r :: rest ∧ t = ⟨some r.value, rest, s.groups⟩ := by
  obtain ⟨before, rest, groups⟩ := s
  cases rest with
  | nil => simp [run] at h
  | cons r rest =>
    simp only [run] at h
    split at h
    next => exact ⟨r, rest, rfl, List.mem_singleton.mp h⟩
    next => simp at h

/-- **Steps of a match.** What each rune and each group keeps, a match keeps. -/
theorem run_induction {R : Position → Position → Prop} (refl : ∀ s, R s s)
    (trans : ∀ s t u, R s t → R t u → R s u)
    (hrune : ∀ before r rest groups, R ⟨before, r :: rest, groups⟩ ⟨some r.value, rest, groups⟩)
    (hgroup : ∀ s t part, R s t → R s { t with groups := t.groups ++ [part] }) (e : Expression) :
    ∀ s, ∀ t ∈ e.run s, R s t := by
  induction e with
  | empty =>
    intro s t ht
    rw [List.mem_singleton.mp ht]
    exact refl s
  | rune p =>
    rintro ⟨before, text, groups⟩ t ht
    obtain ⟨r, rest, rfl, rfl⟩ := eq_of_mem_run_rune ht
    exact hrune before r rest groups
  | wordBoundary =>
    intro s t ht
    simp only [run] at ht
    split at ht
    next => simp at ht
    next =>
      rw [List.mem_singleton.mp ht]
      exact refl s
  | seq a b iha ihb =>
    intro s t ht
    obtain ⟨u, hu, htu⟩ := List.mem_flatMap.mp ht
    exact trans s u t (iha s u hu) (ihb u t htu)
  | alt a b iha ihb =>
    intro s t ht
    rcases List.mem_append.mp ht with hl | hr
    · exact iha s t hl
    · exact ihb s t hr
  | star a ih => exact fun s => repeatFrom_induction refl trans ih _ s
  | group a ih =>
    intro s t ht
    obtain ⟨u, hu, rfl⟩ := List.mem_map.mp ht
    exact hgroup s u _ (ih s u hu)

/-- A match takes its runes from the front and keeps the groups that are passed. -/
theorem run_suffix (e : Expression) {s t : Position} (h : t ∈ e.run s) :
    t.rest <:+ s.rest ∧ s.groups <+: t.groups := by
  refine run_induction (R := fun s t => t.rest <:+ s.rest ∧ s.groups <+: t.groups)
    (fun s => ⟨List.suffix_refl _, List.prefix_refl _⟩) ?_ ?_ ?_ e s t h
  · exact fun s t u hst htu => ⟨htu.1.trans hst.1, hst.2.trans htu.2⟩
  · exact fun before r rest groups => ⟨List.suffix_cons _ _, List.prefix_refl _⟩
  · exact fun s t part hst => ⟨hst.1, hst.2.trans (List.prefix_append _ _)⟩

/-- At least one rune is taken. -/
theorem plus_rune_shorter {p : Char → Bool} {s t : Position} (h : t ∈ (plus (rune p)).run s) :
    t.rest.length < s.rest.length := by
  obtain ⟨u, hu, htu⟩ := List.mem_flatMap.mp h
  obtain ⟨r, rest, hrest, rfl⟩ := eq_of_mem_run_rune hu
  rw [hrest, List.length_cons]
  exact Nat.lt_succ_of_le (run_suffix _ htu).1.length_le

/-- A group of at least one rune is not empty. -/
theorem groups_of_plus_rune {p : Char → Bool} {s t : Position}
    (h : t ∈ (group (plus (rune p))).run s) (hbytes : ∀ r ∈ s.rest, r.bytes ≠ []) :
    ∃ part, t.groups = s.groups ++ [part] ∧ part ≠ [] := by
  obtain ⟨u, hu, rfl⟩ := List.mem_map.mp h
  have hshorter := plus_rune_shorter hu
  have hstep : ∀ s, ∀ t ∈ (rune p).run s, t.groups = s.groups := by
    intro s t ht
    obtain ⟨r, rest, -, rfl⟩ := eq_of_mem_run_rune ht
    rfl
  have hgroups : u.groups = s.groups := by
    obtain ⟨v, hv, huv⟩ := List.mem_flatMap.mp hu
    have hmore : u.groups = v.groups :=
      repeatFrom_induction (R := fun s t => t.groups = s.groups) (fun _ => rfl)
        (fun s t u hst htu => htu.trans hst) hstep _ _ u huv
    rw [hmore, hstep s v hv]
  refine ⟨_, by rw [hgroups], ?_⟩
  obtain ⟨before, rest, groups⟩ := s
  cases rest with
  | nil => simp at hshorter
  | cons r rest =>
    obtain ⟨n, hn⟩ : ∃ n, (r :: rest).length - u.rest.length = n + 1 :=
      ⟨(r :: rest).length - u.rest.length - 1, by simp only at hshorter; omega⟩
    simp only [hn, List.take_succ_cons, bytesOf_cons]
    exact fun hnil => hbytes r (by simp) (List.append_eq_nil_iff.mp hnil).1

/-- A match is one of the matches at some position of the text. -/
theorem exists_run_of_findFrom {e : Expression} {before : Option Char} {text : List Rune}
    {found : Position} (h : findFrom e before text = some found) :
    ∃ before' rest, rest <:+ text ∧ found ∈ e.run ⟨before', rest, []⟩ := by
  induction text generalizing before with
  | nil => exact ⟨before, [], List.suffix_refl _, List.mem_of_head? h⟩
  | cons r text ih =>
    unfold findFrom at h
    split at h
    next found' hfound =>
      rw [← Option.some.inj h]
      exact ⟨before, _, List.suffix_refl _, List.mem_of_head? hfound⟩
    next =>
      obtain ⟨before', rest, hrest, hrun⟩ := ih h
      exact ⟨before', rest, hrest.trans (List.suffix_cons _ _), hrun⟩

end Expression

end Throned.Library
