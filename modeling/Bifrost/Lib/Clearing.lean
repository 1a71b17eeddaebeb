import Mathlib.Tactic.Ring

/-!
# Pools paid out in rounds

A pool collects amounts. A round sets apart what was collected, takers get parts of that, a count
keeps what they got, and the round is closed by a payment of what the count leaves. No pool pays
more than was recorded as long as the parts of a round fit in the whole, the count of an open
round is not lost, and a round is closed once. Where moreover a round starts with the count at
nothing, it pays out exactly what is due.
-/

namespace Bifrost.Clearing

set_option autoImplicit false

/-- `opening` is what had been paid when the round began, `used` the parts taken in it; `pending`
and `due` are what was recorded since it began and for it. -/
structure Pool where
  recorded : ℕ
  collected : ℕ
  last : ℕ
  counted : ℕ
  paid : ℕ
  opening : ℕ
  pending : ℕ
  due : ℕ
  used : ℕ
  closed : Bool
deriving DecidableEq

namespace Pool

def empty : Pool := ⟨0, 0, 0, 0, 0, 0, 0, 0, 0, false⟩

variable (p : Pool)

def spent : ℕ := p.paid - p.opening

def record (n : ℕ) : Pool :=
  { p with recorded := p.recorded + n, collected := p.collected + n, pending := p.pending + n }

def begin : Pool :=
  { p with
    last := p.collected
    collected := 0
    opening := p.paid
    due := p.pending
    pending := 0
    used := 0
    closed := false }

/-- A taker gets `actual`, and `amount` is counted, up to what the count can hold. -/
def take (cap actual amount part : ℕ) : Pool :=
  { p with
    paid := p.paid + actual
    counted := min (p.counted + amount) cap
    used := p.used + part }

def close (amount : ℕ) : Pool :=
  { p with paid := p.paid + amount, counted := 0, closed := true }

def recount : Pool := { p with counted := 0 }

def void : Pool := { p with collected := 0, last := 0, counted := 0 }

/-! What a pool pays is covered. -/

structure Covered (cap whole : ℕ) (p : Pool) : Prop where
  opening_le : p.opening ≤ p.paid
  backed : p.paid + p.collected + (p.last - p.spent) ≤ p.recorded
  within : p.last = 0 ∨ p.spent ≤ p.last
  counted : p.last = 0 ∨ p.closed = true ∨
    (p.spent * whole ≤ p.used * p.last ∧ p.spent ≤ p.counted)
  last_le : p.last ≤ cap
  collected_le : p.collected ≤ cap

/-- A part may be taken: there is nothing to take, or the round is open and has room. -/
def Fits (whole : ℕ) (p : Pool) (part : ℕ) : Prop :=
  p.last = 0 ∨ part = 0 ∨ (p.closed = false ∧ p.used + part ≤ whole)

instance (whole part : ℕ) : Decidable (Fits whole p part) := inferInstanceAs (Decidable (_ ∨ _))

variable {p} {cap whole : ℕ}

theorem covered_empty (cap whole : ℕ) : Covered cap whole empty :=
  ⟨Nat.le_refl _, Nat.le_refl _, Or.inl rfl, Or.inl rfl, Nat.zero_le _, Nat.zero_le _⟩

theorem Covered.paid_le (h : Covered cap whole p) : p.paid ≤ p.recorded := by
  have hbacked := h.backed
  omega

theorem Covered.record {n : ℕ} (h : Covered cap whole p) (hn : p.collected + n ≤ cap) :
    Covered cap whole (p.record n) := by
  refine ⟨h.opening_le, ?_, h.within, h.counted, h.last_le, hn⟩
  have hbacked := h.backed
  simp only [Pool.record, spent] at hbacked ⊢
  omega

theorem Covered.begin (h : Covered cap whole p) : Covered cap whole p.begin := by
  have hspent : p.begin.spent = 0 := Nat.sub_self p.paid
  refine ⟨Nat.le_refl _, ?_, Or.inr ?_, Or.inr (Or.inr ⟨?_, ?_⟩), h.collected_le, Nat.zero_le _⟩
  · have hbacked := h.backed
    rw [hspent]
    simp only [Pool.begin]
    omega
  · rw [hspent]
    exact Nat.zero_le _
  · rw [hspent, Nat.zero_mul]
    exact Nat.zero_le _
  · rw [hspent]
    exact Nat.zero_le _

theorem Fits.mono {part part' : ℕ} (h : Fits whole p part) (hle : part' ≤ part) :
    Fits whole p part' := by
  rcases h with h | h | ⟨hopen, h⟩
  · exact Or.inl h
  · exact Or.inr (Or.inl (by omega))
  · exact Or.inr (Or.inr ⟨hopen, by omega⟩)

theorem Fits.take {part rest : ℕ} (h : Fits whole p (part + rest)) (actual amount : ℕ) :
    Fits whole (p.take cap actual amount part) rest := by
  rcases h with h | h | ⟨hopen, h⟩
  · exact Or.inl h
  · exact Or.inr (Or.inl (by omega))
  · refine Or.inr (Or.inr ⟨hopen, ?_⟩)
    simp only [Pool.take]
    omega

theorem amount_eq_zero {amount part : ℕ} (hwhole : 0 < whole)
    (hamount : amount * whole ≤ part * p.last) (h : p.last = 0 ∨ part = 0) : amount = 0 := by
  have hzero : part * p.last = 0 := by
    rcases h with h | h
    · rw [h, Nat.mul_zero]
    · rw [h, Nat.zero_mul]
  have hnothing : amount * whole = 0 := by omega
  exact (Nat.mul_eq_zero.mp hnothing).resolve_right (by omega)

theorem spent_add_le {amount part : ℕ} (hwhole : 0 < whole)
    (hamount : amount * whole ≤ part * p.last) (hspent : p.spent * whole ≤ p.used * p.last)
    (hroom : p.used + part ≤ whole) : p.spent + amount ≤ p.last := by
  apply Nat.le_of_mul_le_mul_right _ hwhole
  calc (p.spent + amount) * whole = p.spent * whole + amount * whole := Nat.add_mul _ _ _
    _ ≤ p.used * p.last + part * p.last := by omega
    _ = (p.used + part) * p.last := (Nat.add_mul _ _ _).symm
    _ ≤ whole * p.last := Nat.mul_le_mul_right _ hroom
    _ = p.last * whole := Nat.mul_comm _ _

theorem spent_take (h : p.opening ≤ p.paid) (actual amount part : ℕ) :
    (p.take cap actual amount part).spent = p.spent + actual := by
  simp only [spent, Pool.take]
  omega

theorem Covered.take {actual amount part : ℕ} (h : Covered cap whole p) (hwhole : 0 < whole)
    (hactual : actual ≤ amount) (hamount : amount * whole ≤ part * p.last)
    (hfits : Fits whole p part) : Covered cap whole (p.take cap actual amount part) := by
  have hspent : (p.take cap actual amount part).spent = p.spent + actual :=
    spent_take h.opening_le actual amount part
  have hopening := h.opening_le
  have hbacked := h.backed
  have hlast := h.last_le
  have hused : p.spent * whole ≤ p.used * p.last →
      (p.spent + actual) * whole ≤ (p.used + part) * p.last := by
    intro hle
    have hmul : actual * whole ≤ amount * whole := Nat.mul_le_mul_right whole hactual
    rw [Nat.add_mul, Nat.add_mul]
    omega
  -- What is taken fits in what the round has left, or is nothing.
  have hroom : p.last = 0 ∨ p.spent + amount ≤ p.last := by
    rcases hfits with hnone | hpart | ⟨hopen, hle⟩
    · exact Or.inl hnone
    · rw [amount_eq_zero hwhole hamount (Or.inr hpart)]
      exact h.within
    · rcases h.counted with hnone | hclosed | ⟨hparts, -⟩
      · exact Or.inl hnone
      · rw [hopen] at hclosed
        contradiction
      · exact Or.inr (spent_add_le hwhole hamount hparts hle)
  have hzero : p.last = 0 → amount = 0 := fun hnone =>
    amount_eq_zero hwhole hamount (Or.inl hnone)
  refine ⟨?_, ?_, ?_, ?_, hlast, h.collected_le⟩
  · simp only [Pool.take]
    omega
  · rw [hspent]
    simp only [Pool.take]
    rcases hroom with hnone | hle
    · have hnothing := hzero hnone
      omega
    · omega
  · rw [hspent]
    simp only [Pool.take]
    rcases hroom with hnone | hle
    · exact Or.inl hnone
    · exact Or.inr (by omega)
  · rw [hspent]
    simp only [Pool.take]
    rcases h.counted with hnone | hclosed | ⟨hparts, hcounted⟩
    · exact Or.inl hnone
    · exact Or.inr (Or.inl hclosed)
    · rcases hroom with hnone | hle
      · exact Or.inl hnone
      · exact Or.inr (Or.inr ⟨hused hparts, by omega⟩)

theorem spent_close (h : p.opening ≤ p.paid) (amount : ℕ) :
    (p.close amount).spent = p.spent + amount := by
  simp only [spent, Pool.close]
  omega

theorem Covered.close {amount : ℕ} (h : Covered cap whole p) (hamount : amount ≤ p.last - p.counted)
    (hopen : p.last = 0 ∨ p.closed = false) : Covered cap whole (p.close amount) := by
  have hspent := spent_close h.opening_le amount
  have hopening := h.opening_le
  have hbacked := h.backed
  have hroom : p.last = 0 ∨ p.spent + amount ≤ p.last := by
    rcases h.counted with hnone | hclosed | ⟨-, hcounted⟩
    · exact Or.inl hnone
    · rcases hopen with hnone | hopen
      · exact Or.inl hnone
      · rw [hclosed] at hopen
        contradiction
    · rcases h.within with hnone | hle
      · exact Or.inl hnone
      · exact Or.inr (by omega)
  refine ⟨?_, ?_, ?_, Or.inr (Or.inl rfl), h.last_le, h.collected_le⟩
  · simp only [Pool.close]
    omega
  · rw [hspent]
    simp only [Pool.close]
    omega
  · rw [hspent]
    exact hroom

theorem Covered.recount (h : Covered cap whole p)
    (hneeded : p.last = 0 ∨ p.closed = true ∨ p.spent = 0) : Covered cap whole p.recount := by
  refine ⟨h.opening_le, h.backed, h.within, ?_, h.last_le, h.collected_le⟩
  rcases hneeded with hnone | hclosed | hspent
  · exact Or.inl hnone
  · exact Or.inr (Or.inl hclosed)
  · have hsame : p.recount.spent = p.spent := rfl
    refine Or.inr (Or.inr ⟨?_, ?_⟩)
    · rw [hsame, hspent, Nat.zero_mul]
      exact Nat.zero_le _
    · rw [hsame, hspent]
      exact Nat.zero_le _

theorem Covered.void (h : Covered cap whole p) : Covered cap whole p.void := by
  refine ⟨h.opening_le, ?_, Or.inl rfl, Or.inl rfl, Nat.zero_le _, Nat.zero_le _⟩
  have hbacked := h.backed
  simp only [Pool.void]
  omega

/-! A round pays out what is due. -/

/-- The round has paid what was due. -/
def Settled (p : Pool) : Prop := p.spent = p.due ∧ (p.closed = true ∨ p.last = 0)

/-- The round still has to be closed: the count is what it has paid. -/
structure Running (p : Pool) : Prop where
  last_pos : 0 < p.last
  closed_eq : p.closed = false
  last_eq : p.last = p.due
  counted_eq : p.spent = p.counted

theorem settled_or_running_begin (h : p.collected = p.pending)
    (hcounted : p.counted = 0 ∨ p.collected = 0) : p.begin.Settled ∨ p.begin.Running := by
  have hspent : p.begin.spent = 0 := Nat.sub_self p.paid
  rcases Nat.eq_zero_or_pos p.collected with hnone | hpos
  · refine Or.inl ⟨?_, Or.inr hnone⟩
    rw [hspent]
    simp only [Pool.begin]
    omega
  · refine Or.inr ⟨hpos, rfl, h, ?_⟩
    rw [hspent]
    simp only [Pool.begin]
    omega

theorem Settled.record (h : p.Settled) (n : ℕ) : (p.record n).Settled := ⟨h.1, h.2⟩

theorem Running.record (h : p.Running) (n : ℕ) : (p.record n).Running :=
  ⟨h.last_pos, h.closed_eq, h.last_eq, h.counted_eq⟩

theorem Settled.recount (h : p.Settled) : p.recount.Settled := ⟨h.1, h.2⟩

theorem Settled.take {actual amount part : ℕ} (h : p.Settled) (hc : Covered cap whole p)
    (hwhole : 0 < whole) (hactual : actual ≤ amount) (hamount : amount * whole ≤ part * p.last)
    (hfits : Fits whole p part) : (p.take cap actual amount part).Settled := by
  have hnothing : amount = 0 := by
    apply amount_eq_zero hwhole hamount
    rcases hfits with hnone | hpart | ⟨hopen, -⟩
    · exact Or.inl hnone
    · exact Or.inr hpart
    · rcases h.2 with hclosed | hnone
      · rw [hopen] at hclosed
        contradiction
      · exact Or.inl hnone
  refine ⟨?_, h.2⟩
  rw [spent_take hc.opening_le]
  have hdue := h.1
  simp only [Pool.take]
  omega

theorem Running.take {amount part : ℕ} (h : p.Running) (hc : Covered cap whole p)
    (hwhole : 0 < whole) (hamount : amount * whole ≤ part * p.last) (hfits : Fits whole p part) :
    (p.take cap amount amount part).Running := by
  have hcovered := hc.take hwhole (Nat.le_refl amount) hamount hfits
  refine ⟨h.last_pos, h.closed_eq, h.last_eq, ?_⟩
  have hwithin := hcovered.within
  have hlast := hc.last_le
  have hpos := h.last_pos
  have hcounted := h.counted_eq
  rw [spent_take hc.opening_le] at hwithin ⊢
  simp only [Pool.take] at hwithin ⊢
  omega

theorem Settled.close {amount : ℕ} (h : p.Settled) (hc : Covered cap whole p)
    (hamount : amount ≤ p.last - p.counted) (hopen : p.last = 0 ∨ p.closed = false) :
    (p.close amount).Settled := by
  refine ⟨?_, Or.inl rfl⟩
  rw [spent_close hc.opening_le]
  have hdue := h.1
  have hnone : p.last = 0 := by
    rcases h.2 with hclosed | hnone
    · rcases hopen with hnone | hopen
      · exact hnone
      · rw [hclosed] at hopen
        contradiction
    · exact hnone
  simp only [Pool.close]
  omega

theorem Running.close (h : p.Running) (hc : Covered cap whole p) :
    (p.close (p.last - p.counted)).Settled := by
  refine ⟨?_, Or.inl rfl⟩
  rw [spent_close hc.opening_le]
  have hpos := h.last_pos
  have hlast := h.last_eq
  have hcounted := h.counted_eq
  have hwithin := hc.within
  simp only [Pool.close]
  omega

theorem Running.recount (h : p.Running)
    (hneeded : p.last = 0 ∨ p.closed = true ∨ p.spent = 0) : p.recount.Running := by
  refine ⟨h.last_pos, h.closed_eq, h.last_eq, ?_⟩
  rcases hneeded with hnone | hclosed | hspent
  · have hpos := h.last_pos
    omega
  · rw [h.closed_eq] at hclosed
    contradiction
  · exact hspent

theorem Settled.void (h : p.Settled) : p.void.Settled := ⟨h.1, Or.inr rfl⟩

end Pool

end Bifrost.Clearing
