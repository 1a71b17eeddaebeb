import Mathlib.Algebra.Order.BigOperators.Group.List
import Mathlib.Algebra.Order.Ring.Nat
import Mathlib.Data.List.Nodup

/-!
# Shares taken in turns

A pot from which everyone in a list takes a share of what is there when it is their turn. Every
order gives everyone the same exactly when whoever comes last still gets what the first one gets.
-/

namespace Bifrost.Turns

set_option autoImplicit false

universe u

variable {ι : Type u}

/-- What stays in a pot of `n` after `t` is taken. Less than `dust` is swept away. -/
def left (dust n t : ℕ) : ℕ :=
  if t = 0 then n else if n - t < dust then 0 else n - t

def taken (dust : ℕ) (share : ι → ℕ → ℕ) : ℕ → List ι → List (ι × ℕ)
  | _, [] => []
  | n, i :: is => (i, share i n) :: taken dust share (left dust n (share i n)) is

def total (share : ι → ℕ → ℕ) (n : ℕ) (l : List ι) : ℕ := (l.map fun i => share i n).sum

/-- Whoever comes last gets the share of the full pot. -/
def Steady [DecidableEq ι] (dust : ℕ) (share : ι → ℕ → ℕ) (n : ℕ) (l : List ι) : Prop :=
  ∀ i ∈ l, share i (left dust n (total share n (l.erase i))) = share i n

section Left

variable {dust n t u : ℕ}

end Left

section Takings

variable {dust n : ℕ} {share : ι → ℕ → ℕ} {l l' : List ι} {i : ι}

variable [DecidableEq ι]

end Takings

end Bifrost.Turns
