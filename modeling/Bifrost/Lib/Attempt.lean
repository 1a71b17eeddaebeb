import Bifrost.Lib.Result

/-!
# Work that is not a transaction

Where a step of a transaction fails, nothing of it stays; a hook has no such cover, and what it
did before a step failed stays done. An attempt ends in a state and with the error that stopped
it, if one did. `tryForEach` works through a list and stops at the first error; `commit` is the
same work as a transaction.
-/

namespace Bifrost

set_option autoImplicit false

universe u v w

/-- The state work ends in, and the error that stopped it. -/
abbrev Attempt (ε : Type u) (σ : Type v) := σ × Option ε

namespace Attempt

variable {ε : Type u} {σ : Type v} {α : Type w}

/-- One step that changes nothing where it fails. -/
def atomic (s : σ) : Except ε σ → Attempt ε σ
  | .ok s' => (s', none)
  | .error e => (s, some e)

/-- What a transaction makes of an attempt. -/
def commit (r : Attempt ε σ) : Except ε σ :=
  match r.2 with
  | none => .ok r.1
  | some e => .error e

def tryForEach (f : σ → α → Attempt ε σ) : σ → List α → Attempt ε σ
  | s, [] => (s, none)
  | s, a :: as =>
    match f s a with
    | (s', none) => tryForEach f s' as
    | (s', some e) => (s', some e)

@[simp] theorem atomic_ok (s s' : σ) : atomic s (.ok s' : Except ε σ) = (s', none) := rfl

@[simp] theorem atomic_error (s : σ) (e : ε) : atomic s (.error e) = (s, some e) := rfl

@[simp] theorem commit_eq_ok {r : Attempt ε σ} {s : σ} : commit r = .ok s ↔ r = (s, none) := by
  obtain ⟨s', e⟩ := r
  cases e with
  | none => simp [commit]
  | some e => simp [commit]

theorem atomic_eq_done {s s' : σ} {x : Except ε σ} : atomic s x = (s', none) ↔ x = .ok s' := by
  cases x with
  | ok a => simp
  | error e => simp

variable {f : σ → α → Attempt ε σ}

@[simp] theorem tryForEach_nil (s : σ) : tryForEach f s [] = (s, none) := rfl

theorem tryForEach_cons_eq_done {s s' : σ} {a : α} {as : List α} :
    tryForEach f s (a :: as) = (s', none) ↔
      ∃ t, f s a = (t, none) ∧ tryForEach f t as = (s', none) := by
  rw [tryForEach]
  obtain ⟨t, e⟩ := f s a
  cases e with
  | none => simp
  | some e => simp

theorem tryForEach_append_eq_done {s s' : σ} {as bs : List α} :
    tryForEach f s (as ++ bs) = (s', none) ↔
      ∃ t, tryForEach f s as = (t, none) ∧ tryForEach f t bs = (s', none) := by
  induction as generalizing s with
  | nil => simp
  | cons a as ih =>
    rw [List.cons_append, tryForEach_cons_eq_done]
    constructor
    · rintro ⟨t, ht, hrest⟩
      obtain ⟨u, hu, hbs⟩ := ih.mp hrest
      exact ⟨u, tryForEach_cons_eq_done.mpr ⟨t, ht, hu⟩, hbs⟩
    · rintro ⟨u, hu, hbs⟩
      obtain ⟨t, ht, hrest⟩ := tryForEach_cons_eq_done.mp hu
      exact ⟨t, ht, ih.mpr ⟨u, hrest, hbs⟩⟩

theorem tryForEach_rel {R : σ → σ → Prop} (hrefl : ∀ s, R s s)
    (htrans : ∀ {s t u}, R s t → R t u → R s u) (hstep : ∀ s a, R s (f s a).1) (as : List α)
    (s : σ) : R s (tryForEach f s as).1 := by
  induction as generalizing s with
  | nil => exact hrefl s
  | cons a as ih =>
    have ha := hstep s a
    rw [tryForEach]
    generalize f s a = r at ha
    obtain ⟨t, e⟩ := r
    cases e with
    | none => exact htrans ha (ih t)
    | some e => exact ha

end Attempt

end Bifrost
