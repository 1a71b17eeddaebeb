import Mathlib.Data.Nat.Basic

/-!
# Fallible computations

`Except ε` with the three guards a checked program is written in: a condition that
must hold, an optional value that must be there, and the bind that peels one
computation off another. Each has one inversion lemma, so that a call that succeeded
is taken apart without unfolding it.
-/

namespace Bifrost.Result

set_option autoImplicit false

universe u v

variable {ε : Type u} {α β : Type v} {x : Except ε α}

/-- `ensure!(p, e)`. -/
def ensure (p : Prop) [Decidable p] (e : ε) : Except ε PUnit :=
  if p then .ok .unit else .error e

/-- `o.ok_or(e)?`. -/
def okOr (o : Option α) (e : ε) : Except ε α :=
  match o with
  | some a => .ok a
  | none => .error e

/-- `r.map_err(f)?`. -/
def mapErr {ε' : Type u} (r : Except ε' α) (f : ε' → ε) : Except ε α :=
  match r with
  | .ok a => .ok a
  | .error e => .error (f e)

@[simp] theorem bind_eq_ok {f : α → Except ε β} {b : β} :
    (x >>= f) = .ok b ↔ ∃ a, x = .ok a ∧ f a = .ok b := by
  cases x with
  | error e => simp [bind, Except.bind]
  | ok a => simp [bind, Except.bind]

@[simp] theorem ensure_eq_ok {p : Prop} [Decidable p] {e : ε} {u : PUnit} :
    ensure p e = .ok u ↔ p := by
  unfold ensure
  split <;> simp_all

@[simp] theorem okOr_eq_ok {o : Option α} {e : ε} {a : α} : okOr o e = .ok a ↔ o = some a := by
  cases o <;> simp [okOr]

@[simp] theorem mapErr_eq_ok {ε' : Type u} {r : Except ε' α} {f : ε' → ε} {a : α} :
    mapErr r f = .ok a ↔ r = .ok a := by
  cases r <;> simp [mapErr]

@[simp] theorem pure_eq_ok {a b : α} : (pure a : Except ε α) = .ok b ↔ a = b := by
  simp [pure, Except.pure]

theorem bind_eq_error {f : α → Except ε β} {e : ε} :
    (x >>= f) = .error e ↔ x = .error e ∨ ∃ a, x = .ok a ∧ f a = .error e := by
  cases x with
  | error e => simp [bind, Except.bind]
  | ok a => simp [bind, Except.bind]

theorem okOr_eq_error {o : Option α} {e e' : ε} : okOr o e = .error e' ↔ o = none ∧ e = e' := by
  cases o <;> simp [okOr]

theorem exists_of_toBool (h : x.toBool = true) : ∃ a, x = .ok a := by
  cases x with
  | error e => simp [Except.toBool] at h
  | ok a => exact ⟨a, rfl⟩

/-- `p` holds of what is computed, where anything is. -/
def Ensures (x : Except ε α) (p : α → Prop) : Prop :=
  match x with
  | .ok a => p a
  | .error _ => True

/-- Something is computed and `p` holds of it. -/
def Yields (x : Except ε α) (p : α → Prop) : Prop :=
  match x with
  | .ok a => p a
  | .error _ => False

instance (x : Except ε α) (p : α → Prop) [∀ a, Decidable (p a)] : Decidable (Ensures x p) :=
  match x with
  | .ok a => inferInstanceAs (Decidable (p a))
  | .error _ => inferInstanceAs (Decidable True)

instance (x : Except ε α) (p : α → Prop) [∀ a, Decidable (p a)] : Decidable (Yields x p) :=
  match x with
  | .ok a => inferInstanceAs (Decidable (p a))
  | .error _ => inferInstanceAs (Decidable False)

theorem ensures_iff {p : α → Prop} : Ensures x p ↔ ∀ a, x = .ok a → p a := by
  cases x with
  | error e => simp [Ensures]
  | ok a => simp [Ensures]

theorem yields_iff {p : α → Prop} : Yields x p ↔ ∃ a, x = .ok a ∧ p a := by
  cases x with
  | error e => simp [Yields]
  | ok a => simp [Yields]

theorem Ensures.of_ok {p : α → Prop} {a : α} (h : Ensures x p) (hx : x = .ok a) : p a :=
  ensures_iff.mp h a hx

theorem foldlM_rel {R : β → β → Prop} {f : β → α → Except ε β} (hrefl : ∀ b, R b b)
    (htrans : ∀ {b c d}, R b c → R c d → R b d) (hstep : ∀ b a c, f b a = .ok c → R b c)
    {l : List α} {b c : β} (h : l.foldlM f b = .ok c) : R b c := by
  induction l generalizing b with
  | nil =>
    simp only [List.foldlM_nil, pure_eq_ok] at h
    exact h ▸ hrefl b
  | cons a l ih =>
    simp only [List.foldlM_cons, bind_eq_ok] at h
    obtain ⟨b', hb', h'⟩ := h
    exact htrans (hstep b a b' hb') (ih h')

theorem foldlM_invariant {I : β → Prop} {f : β → α → Except ε β} {l : List α}
    (hstep : ∀ a ∈ l, ∀ b c, I b → f b a = .ok c → I c) {b c : β} (hb : I b)
    (h : l.foldlM f b = .ok c) : I c := by
  induction l generalizing b with
  | nil =>
    rw [List.foldlM_nil, pure_eq_ok] at h
    exact h ▸ hb
  | cons a l ih =>
    simp only [List.foldlM_cons, bind_eq_ok] at h
    obtain ⟨b', hb', h'⟩ := h
    exact ih (fun a ha => hstep a (List.mem_cons_of_mem _ ha))
      (hstep a List.mem_cons_self b b' hb hb') h'

theorem foldlM_eq_error {f : β → α → Except ε β} {l : List α} {b : β} {e : ε}
    (h : l.foldlM f b = .error e) : ∃ a ∈ l, ∃ c, f c a = .error e := by
  induction l generalizing b with
  | nil => cases h
  | cons a l ih =>
    rw [List.foldlM_cons, bind_eq_error] at h
    rcases h with h | ⟨c, -, h⟩
    · exact ⟨a, List.mem_cons_self, b, h⟩
    · obtain ⟨a', ha', c', h'⟩ := ih h
      exact ⟨a', List.mem_cons_of_mem a ha', c', h'⟩

theorem foldlM_congr {f g : β → α → Except ε β} {l : List α}
    (h : ∀ a ∈ l, ∀ b, f b a = g b a) {b : β} : l.foldlM f b = l.foldlM g b := by
  induction l generalizing b with
  | nil => rfl
  | cons a l ih =>
    rw [List.foldlM_cons, List.foldlM_cons, h a List.mem_cons_self]
    congr 1
    funext b'
    exact ih fun a' ha' => h a' (List.mem_cons_of_mem a ha')

theorem forM_eq_ok {f : α → Except ε PUnit} {l : List α} (h : l.forM f = .ok ⟨⟩) :
    ∀ a ∈ l, f a = .ok ⟨⟩ := by
  induction l with
  | nil => exact List.forall_mem_nil _
  | cons a l ih =>
    have hcons : (f a >>= fun _ => l.forM f) = .ok ⟨⟩ := h
    rw [bind_eq_ok] at hcons
    obtain ⟨⟨⟩, ha, hrest⟩ := hcons
    exact List.forall_mem_cons.mpr ⟨ha, ih hrest⟩

theorem mapM_congr {m : Type v → Type u} [Monad m] [LawfulMonad m] {γ : Type u} {f g : γ → m β}
    {l : List γ} (h : ∀ a ∈ l, f a = g a) : l.mapM f = l.mapM g := by
  induction l with
  | nil => rfl
  | cons a l ih =>
    rw [List.mapM_cons, List.mapM_cons, h a List.mem_cons_self,
      ih fun b hb => h b (List.mem_cons_of_mem a hb)]

end Bifrost.Result
