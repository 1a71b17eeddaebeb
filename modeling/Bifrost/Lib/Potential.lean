import Bifrost.Lib.Machine

/-!
# What the calls of a run add up to

`total amount` adds an amount over the calls of a run that succeed. A measure of the state that
every call changes by its amounts changes over a run by their totals.
-/

namespace Bifrost.Machine

set_option autoImplicit false

universe u v w

variable {σ : Type u} {α : Type v} {ε : Type w} (step : σ → α → Except ε σ)

def spent (amount : σ → α → ℕ) (s : σ) (a : α) : ℕ :=
  match step s a with
  | .ok _ => amount s a
  | .error _ => 0

def total (amount : σ → α → ℕ) : σ → List α → ℕ
  | _, [] => 0
  | s, a :: as => spent step amount s a + total amount (exec step s a) as

variable {step}

theorem spent_ok {amount : σ → α → ℕ} {s s' : σ} {a : α} (h : step s a = .ok s') :
    spent step amount s a = amount s a := by
  simp only [spent, h]

theorem total_zero (as : List α) (s : σ) : total step (fun _ _ => 0) s as = 0 := by
  induction as generalizing s with
  | nil => rfl
  | cons a as ih =>
    rw [total, ih, spent]
    split
    · rfl
    · rfl

section Measure

variable {I : σ → Prop} {ok : σ → α → Prop} {f : σ → ℕ} {put taken : σ → α → ℕ}

/-- A measure that pays for what each call puts out from what it takes in. -/
theorem run_add_total_le
    (hstep : ∀ s a s', I s → ok s a → step s a = .ok s' →
      I s' ∧ f s' + put s a ≤ f s + taken s a)
    {as : List α} {s : σ} (hs : I s) (has : Meets step ok s as) :
    f (run step s as) + total step put s as ≤ f s + total step taken s as := by
  induction as generalizing s with
  | nil => exact Nat.le_refl _
  | cons a as ih =>
    simp only [run_cons, total]
    cases h : step s a with
    | error e =>
      have hexec : exec step s a = s := by simp [exec, h]
      have hrest := ih hs (hexec ▸ has.2)
      simp only [spent, h, hexec]
      omega
    | ok s' =>
      obtain ⟨hs', hle⟩ := hstep s a s' hs (has.1 s' h) h
      have hrest := ih hs' (exec_ok h ▸ has.2)
      rw [exec_ok h, spent_ok h, spent_ok h]
      omega

/-- A measure that keeps what each call puts in, but for what it takes out. -/
theorem add_total_le_run
    (hstep : ∀ s a s', I s → ok s a → step s a = .ok s' →
      I s' ∧ f s + put s a ≤ f s' + taken s a)
    {as : List α} {s : σ} (hs : I s) (has : Meets step ok s as) :
    f s + total step put s as ≤ f (run step s as) + total step taken s as := by
  induction as generalizing s with
  | nil => exact Nat.le_refl _
  | cons a as ih =>
    simp only [run_cons, total]
    cases h : step s a with
    | error e =>
      have hexec : exec step s a = s := by simp [exec, h]
      have hrest := ih hs (hexec ▸ has.2)
      simp only [spent, h, hexec]
      omega
    | ok s' =>
      obtain ⟨hs', hle⟩ := hstep s a s' hs (has.1 s' h) h
      have hrest := ih hs' (exec_ok h ▸ has.2)
      rw [exec_ok h, spent_ok h, spent_ok h]
      omega

/-- A measure that each call raises by its amount at most. -/
theorem run_le_add_total (scope : α → Prop)
    (hstep : ∀ s a s', I s → scope a → step s a = .ok s' → I s' ∧ f s' ≤ f s + taken s a)
    {as : List α} {s : σ} (hs : I s) (has : ∀ a ∈ as, scope a) :
    f (run step s as) ≤ f s + total step taken s as := by
  have hmeets : Meets step (fun _ a => scope a) s as :=
    meets_of_forall as (fun a ha _ => has a ha) s
  have hrun : f (run step s as) + total step (fun _ _ => 0) s as ≤
      f s + total step taken s as := run_add_total_le hstep hs hmeets
  rwa [total_zero] at hrun

/-- Each call changes a measure by exactly what it takes in and puts out. -/
theorem run_add_total
    (hstep : ∀ s a s', step s a = .ok s' → f s' + put s a = f s + taken s a)
    (as : List α) (s : σ) :
    f (run step s as) + total step put s as = f s + total step taken s as := by
  have hall : Meets step (fun _ _ => True) s as := meets_true as s
  apply Nat.le_antisymm
  · refine run_add_total_le (I := fun _ => True) ?_ trivial hall
    intro s a s' _ _ h
    exact ⟨trivial, Nat.le_of_eq (hstep s a s' h)⟩
  · refine add_total_le_run (I := fun _ => True) ?_ trivial hall
    intro s a s' _ _ h
    exact ⟨trivial, Nat.le_of_eq (hstep s a s' h).symm⟩

end Measure

end Bifrost.Machine
