import Mathlib.Data.List.Basic
import Mathlib.Order.Nat

/-!
# Frames in a stream

A reader cuts frames off the front of what it has buffered.  Where more bytes at the end do
not change the frame at the front, the frames of a stream and what is left over do not depend
on the chunks in which the stream has arrived.
-/

set_option autoImplicit false

namespace Throned.Library

variable {β φ : Type*}

/-- A reader of frames; a frame takes at least one byte. -/
structure Framing (β φ : Type*) where
  next : List β → Option (φ × List β)
  shorter : ∀ buf frame rest, next buf = some (frame, rest) → rest.length < buf.length

namespace Framing

def cut (F : Framing β φ) : ℕ → List β → List φ × List β
  | 0, buf => ([], buf)
  | fuel + 1, buf =>
    match F.next buf with
    | none => ([], buf)
    | some (frame, rest) => (frame :: (F.cut fuel rest).1, (F.cut fuel rest).2)

variable (F : Framing β φ)

/-- The frames at the front of a buffer, and what is left. -/
def drain (buf : List β) : List φ × List β := F.cut buf.length buf

theorem next_nil : F.next [] = none := by
  cases hnext : F.next [] with
  | none => rfl
  | some cutOff => exact absurd (F.shorter [] cutOff.1 cutOff.2 hnext) (Nat.not_lt_zero _)

theorem cut_nil (fuel : ℕ) : F.cut fuel [] = ([], []) := by
  cases fuel with
  | zero => rfl
  | succ fuel => simp only [cut, next_nil]

/-- More fuel than bytes changes nothing. -/
theorem cut_fuel {fuel fuel' : ℕ} {buf : List β} (h : buf.length ≤ fuel) (h' : buf.length ≤ fuel') :
    F.cut fuel buf = F.cut fuel' buf := by
  induction fuel generalizing fuel' buf with
  | zero =>
    rw [List.eq_nil_of_length_eq_zero (Nat.le_zero.mp h), cut_nil, cut_nil]
  | succ fuel ih =>
    cases fuel' with
    | zero => rw [List.eq_nil_of_length_eq_zero (Nat.le_zero.mp h'), cut_nil, cut_nil]
    | succ fuel' =>
      cases hnext : F.next buf with
      | none => simp only [cut, hnext]
      | some cutOff =>
        have hshort := F.shorter buf cutOff.1 cutOff.2 hnext
        have hrest : F.cut fuel cutOff.2 = F.cut fuel' cutOff.2 := ih (by omega) (by omega)
        simp only [cut, hnext, hrest]

theorem drain_none {buf : List β} (h : F.next buf = none) : F.drain buf = ([], buf) := by
  unfold drain
  cases buf.length with
  | zero => rfl
  | succ n => simp only [cut, h]

theorem drain_some {buf rest : List β} {frame : φ} (h : F.next buf = some (frame, rest)) :
    F.drain buf = (frame :: (F.drain rest).1, (F.drain rest).2) := by
  have hshort := F.shorter _ _ _ h
  have hrest : F.cut buf.length rest = F.drain rest := F.cut_fuel hshort.le le_rfl
  have hmore : F.drain buf = F.cut (buf.length + 1) buf := F.cut_fuel le_rfl (Nat.le_succ _)
  rw [hmore, ← hrest]
  simp only [cut, h]

/-- More bytes do not change a frame. -/
def Settled (F : Framing β φ) (P : φ → Prop) : Prop :=
  ∀ buf frame rest, F.next buf = some (frame, rest) → P frame →
    ∀ more, F.next (buf ++ more) = some (frame, rest ++ more)

/-- **The frames do not depend on the chunks.** -/
theorem drain_append {P : φ → Prop} (hF : F.Settled P) {buf : List β}
    (hP : ∀ frame ∈ (F.drain buf).1, P frame) (more : List β) :
    F.drain (buf ++ more) =
      ((F.drain buf).1 ++ (F.drain ((F.drain buf).2 ++ more)).1,
        (F.drain ((F.drain buf).2 ++ more)).2) := by
  induction hn : buf.length using Nat.strong_induction_on generalizing buf with
  | _ n ih =>
    cases hnext : F.next buf with
    | none =>
      rw [F.drain_none hnext]
      rfl
    | some cutOff =>
      obtain ⟨frame, rest⟩ := cutOff
      rw [F.drain_some hnext] at hP ⊢
      have hshort := F.shorter _ _ _ hnext
      have hmore := hF buf frame rest hnext (hP frame List.mem_cons_self) more
      rw [F.drain_some hmore,
        ih rest.length (by omega) (fun other hother => hP other (List.mem_cons_of_mem _ hother)) rfl]
      rfl

end Framing

end Throned.Library
