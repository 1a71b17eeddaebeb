import Mathlib.Data.List.Basic

/-!
# Runs of calls that may fail

`step s a` is one call. A call that fails leaves the state as it was, so a run is a fold
of `exec`. `Meets ok` is a run all of whose successful calls satisfy `ok` in the state
they are made in; an invariant that such calls keep holds in every state the run reaches.
`Always P` is a run all of whose states satisfy `P`; where a call keeps `P` exactly if it
satisfies `ok`, the two are the same.
-/

namespace Bifrost.Machine

set_option autoImplicit false

universe u v w

variable {σ : Type u} {α : Type v} {ε : Type w} (step : σ → α → Except ε σ)

def exec (s : σ) (a : α) : σ :=
  match step s a with
  | .ok s' => s'
  | .error _ => s

def run (s : σ) (as : List α) : σ := as.foldl (exec step) s

/-- Every call of the run that succeeds satisfies `ok` in the state before it. -/
def Meets (ok : σ → α → Prop) : σ → List α → Prop
  | _, [] => True
  | s, a :: as => (∀ s', step s a = .ok s' → ok s a) ∧ Meets ok (exec step s a) as

def Always (P : σ → Prop) : σ → List α → Prop
  | s, [] => P s
  | s, a :: as => P s ∧ Always P (exec step s a) as

variable {step} {s : σ} {as : List α}

theorem exec_ok {s s' : σ} {a : α} (h : step s a = .ok s') : exec step s a = s' := by
  simp [exec, h]

theorem exec_cases (step : σ → α → Except ε σ) (s : σ) (a : α) :
    step s a = .ok (exec step s a) ∨ exec step s a = s := by
  unfold exec
  split
  · exact Or.inl (by assumption)
  · exact Or.inr rfl

theorem ok_exec {a : α} (h : (step s a).isOk = true) : step s a = .ok (exec step s a) := by
  cases heq : step s a with
  | ok s' => rw [exec_ok heq]
  | error e => simp [heq, Except.isOk, Except.toBool] at h

@[simp] theorem run_nil (s : σ) : run step s [] = s := rfl

@[simp] theorem run_cons (s : σ) (a : α) (as : List α) :
    run step s (a :: as) = run step (exec step s a) as := rfl

instance decidableMeets {ok : σ → α → Prop} [∀ s a, Decidable (ok s a)] :
    ∀ (s : σ) (as : List α), Decidable (Meets step ok s as)
  | _, [] => .isTrue trivial
  | s, a :: as =>
    have : Decidable (Meets step ok (exec step s a) as) := decidableMeets (exec step s a) as
    have : Decidable (∀ s', step s a = .ok s' → ok s a) :=
      match h : step s a with
      | .ok s' => decidable_of_iff (ok s a) ⟨fun hok _ _ => hok, fun hall => hall s' rfl⟩
      | .error _ => .isTrue fun _ hfalse => by cases hfalse
    inferInstanceAs (Decidable (_ ∧ _))

theorem run_of_foldlM {s s' : σ} (h : as.foldlM step s = .ok s') : run step s as = s' := by
  induction as generalizing s with
  | nil => exact Except.ok.inj h
  | cons a as ih =>
    rw [List.foldlM_cons] at h
    cases hstep : step s a with
    | error e => simp [hstep, bind, Except.bind] at h
    | ok s₁ =>
      rw [run_cons, exec_ok hstep]
      apply ih
      simpa [hstep, bind, Except.bind] using h

section Invariant

variable {ok : σ → α → Prop} {I : σ → Prop}

theorem exec_invariant (hstep : ∀ s a s', I s → ok s a → step s a = .ok s' → I s')
    {a : α} (hs : I s) (ha : ∀ s', step s a = .ok s' → ok s a) : I (exec step s a) := by
  rcases exec_cases step s a with h | h
  · exact hstep s a _ hs (ha _ h) h
  · exact h.symm ▸ hs

/-- The induction over a run, once: what every admitted call keeps holds at the end. -/
theorem run_invariant (hstep : ∀ s a s', I s → ok s a → step s a = .ok s' → I s')
    (as : List α) (hs : I s) (has : Meets step ok s as) : I (run step s as) := by
  induction as generalizing s with
  | nil => exact hs
  | cons a as ih => exact ih (exec_invariant hstep hs has.1) has.2

/-- What every admitted call keeps holds all along. -/
theorem always_of_meets (hstep : ∀ s a s', I s → ok s a → step s a = .ok s' → I s')
    (as : List α) (hs : I s) (has : Meets step ok s as) : Always step I s as := by
  induction as generalizing s with
  | nil => exact hs
  | cons a as ih => exact ⟨hs, ih (exec_invariant hstep hs has.1) has.2⟩

end Invariant

theorem Always.imp {P Q : σ → Prop} (h : ∀ s, P s → Q s)
    (hp : Always step P s as) : Always step Q s as := by
  induction as generalizing s with
  | nil => exact h s hp
  | cons a as ih => exact ⟨h s hp.1, ih hp.2⟩

theorem meets_true (as : List α) (s : σ) : Meets step (fun _ _ => True) s as := by
  induction as generalizing s with
  | nil => trivial
  | cons a as ih => exact ⟨fun _ _ => trivial, ih _⟩

theorem meets_append {ok : σ → α → Prop} {as bs : List α} (has : Meets step ok s as)
    (hbs : Meets step ok (run step s as) bs) : Meets step ok s (as ++ bs) := by
  induction as generalizing s with
  | nil => exact hbs
  | cons a as ih => exact ⟨has.1, ih has.2 hbs⟩

theorem Meets.imp {ok ok' : σ → α → Prop} (h : ∀ s a, ok s a → ok' s a)
    (has : Meets step ok s as) : Meets step ok' s as := by
  induction as generalizing s with
  | nil => trivial
  | cons a as ih => exact ⟨fun s' hs' => h s a (has.1 s' hs'), ih has.2⟩

theorem Meets.and {ok ok' : σ → α → Prop} (h : Meets step ok s as)
    (h' : Meets step ok' s as) : Meets step (fun s a => ok s a ∧ ok' s a) s as := by
  induction as generalizing s with
  | nil => trivial
  | cons a as ih => exact ⟨fun s' hs' => ⟨h.1 s' hs', h'.1 s' hs'⟩, ih h.2 h'.2⟩

theorem meets_of_forall {ok : σ → α → Prop} (as : List α) (h : ∀ a ∈ as, ∀ s, ok s a) (s : σ) :
    Meets step ok s as := by
  induction as generalizing s with
  | nil => trivial
  | cons a as ih =>
    refine ⟨fun _ _ => h a List.mem_cons_self s, ih ?_ _⟩
    intro b hb
    exact h b (List.mem_cons_of_mem a hb)

theorem Always.run {P : σ → Prop} (h : Always step P s as) : P (run step s as) := by
  induction as generalizing s with
  | nil => exact h
  | cons a as ih => exact ih h.2

/-- What the calls of a run satisfy, given what its states do. -/
theorem Meets.imp_always {P : σ → Prop} {ok ok' : σ → α → Prop}
    (h : ∀ s a s', P s → step s a = .ok s' → ok s a → ok' s a)
    (hp : Always step P s as) (has : Meets step ok s as) : Meets step ok' s as := by
  induction as generalizing s with
  | nil => trivial
  | cons a as ih =>
    exact ⟨fun s' hs' => h s a s' hp.1 hs' (has.1 s' hs'), ih hp.2 has.2⟩

/-- Where a call that meets `pre` keeps `P` exactly if it is `ok`, a run of such calls stays in `P`
exactly if its calls are. -/
theorem always_iff_meets_of_meets {pre ok : σ → α → Prop} {I P : σ → Prop}
    (hstep : ∀ s a s', pre s a → I s → P s → step s a = .ok s' → (P s' ↔ ok s a) ∧ (P s' → I s'))
    (has : Meets step pre s as) (hi : I s) (hp : P s) :
    Always step P s as ↔ Meets step ok s as := by
  induction as generalizing s with
  | nil => exact ⟨fun _ => trivial, fun _ => hp⟩
  | cons a as ih =>
    obtain ⟨ha, has⟩ := has
    cases h : step s a with
    | error e =>
      have hexec : exec step s a = s := by simp [exec, h]
      rw [hexec] at has
      have ihs := ih has hi hp
      simp only [Always, Meets, hexec, h, reduceCtorEq, false_imp_iff, implies_true, true_and,
        ihs, and_iff_right hp]
    | ok s' =>
      have hexec : exec step s a = s' := exec_ok h
      rw [hexec] at has
      obtain ⟨hiff, hnext⟩ := hstep s a s' (ha s' h) hi hp h
      simp only [Always, Meets, hexec, h, Except.ok.injEq, forall_eq', and_iff_right hp]
      constructor
      · intro hrest
        have hp' : P s' := by
          cases as with
          | nil => exact hrest
          | cons b bs => exact hrest.1
        exact ⟨hiff.mp hp', (ih has (hnext hp') hp').mp hrest⟩
      · rintro ⟨hok, hrest⟩
        have hp' := hiff.mpr hok
        exact (ih has (hnext hp') hp').mpr hrest

theorem always_iff_meets {ok : σ → α → Prop} {scope : α → Prop} {I P : σ → Prop}
    (hstep : ∀ s a s', scope a → I s → P s → step s a = .ok s' → (P s' ↔ ok s a) ∧ (P s' → I s'))
    (has : ∀ a ∈ as, scope a) (hi : I s) (hp : P s) :
    Always step P s as ↔ Meets step ok s as :=
  always_iff_meets_of_meets hstep (meets_of_forall as (fun a ha _ => has a ha) s) hi hp

end Bifrost.Machine
