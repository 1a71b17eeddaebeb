import Mathlib.Algebra.GroupWithZero.Nat
import Mathlib.Algebra.Order.BigOperators.Group.Finset

/-!
# Sums in which one term changes

Two sums over a list without repetitions whose terms agree off one element differ by the change of
that term.
-/

namespace Bifrost.Sums

set_option autoImplicit false

universe u v

variable {α : Type u} {M : Type v} [AddCommMonoid M] {l : List α} {f g : α → M} {x : α}

theorem sum_eq_of_notMem (hx : x ∉ l) (hoff : ∀ a ∈ l, a ≠ x → f a = g a) :
    (l.map f).sum = (l.map g).sum := by
  congr 1
  apply List.map_congr_left
  intro a ha
  apply hoff a ha
  rintro rfl
  exact hx ha

theorem sum_add_of_forall_mem (hnodup : l.Nodup) (hx : x ∈ l)
    (hoff : ∀ a ∈ l, a ≠ x → f a = g a) : (l.map f).sum + g x = (l.map g).sum + f x := by
  induction l with
  | nil => exact absurd hx List.not_mem_nil
  | cons a l ih =>
    obtain ⟨ha, hl⟩ := List.nodup_cons.mp hnodup
    have hrest : ∀ b ∈ l, b ≠ x → f b = g b := fun b hb => hoff b (List.mem_cons_of_mem a hb)
    simp only [List.map_cons, List.sum_cons]
    rcases List.mem_cons.mp hx with rfl | hmem
    · rw [sum_eq_of_notMem ha hrest, add_right_comm, add_comm (f x), add_right_comm]
    · have hne : a ≠ x := by
        rintro rfl
        exact ha hmem
      rw [hoff a List.mem_cons_self hne, add_assoc, ih hl hmem hrest, add_assoc]

theorem sum_add_of_mem (hnodup : l.Nodup) (hx : x ∈ l) (hoff : ∀ a, a ≠ x → f a = g a) :
    (l.map f).sum + g x = (l.map g).sum + f x :=
  sum_add_of_forall_mem hnodup hx fun a _ => hoff a

theorem sum_filter_ne [DecidableEq α] (hnodup : l.Nodup) (hx : x ∈ l) (f : α → M) :
    ((l.filter fun a => a ≠ x).map f).sum + f x = (l.map f).sum := by
  induction l with
  | nil => exact absurd hx List.not_mem_nil
  | cons a l ih =>
    obtain ⟨ha, hl⟩ := List.nodup_cons.mp hnodup
    rcases List.mem_cons.mp hx with rfl | hmem
    · have hrest : l.filter (fun b => b ≠ x) = l := by
        apply List.filter_eq_self.mpr
        intro b hb
        have hne : b ≠ x := by
          rintro rfl
          exact ha hb
        exact decide_eq_true hne
      rw [List.filter_cons_of_neg (by simp), hrest, List.map_cons, List.sum_cons, add_comm]
    · have hne : a ≠ x := by
        rintro rfl
        exact ha hmem
      rw [List.filter_cons_of_pos (by simpa using hne), List.map_cons, List.sum_cons, add_assoc,
        ih hl hmem, List.map_cons, List.sum_cons]

theorem sum_add_le_of_mem [DecidableEq α] {f g : α → ℕ} (hnodup : l.Nodup) (hx : x ∈ l)
    (hoff : ∀ a ∈ l, a ≠ x → f a ≤ g a) : (l.map f).sum + g x ≤ (l.map g).sum + f x := by
  have hf := sum_filter_ne hnodup hx f
  have hg := sum_filter_ne hnodup hx g
  have hle : ((l.filter fun a => a ≠ x).map f).sum ≤ ((l.filter fun a => a ≠ x).map g).sum := by
    apply List.sum_le_sum
    intro a ha
    obtain ⟨hmem, hne⟩ := List.mem_filter.mp ha
    exact hoff a hmem (of_decide_eq_true hne)
  omega

theorem nodup_zipIdx (l : List α) : l.zipIdx.Nodup := by
  apply List.Nodup.of_map Prod.snd
  rw [List.zipIdx_map_snd]
  exact List.nodup_range'

theorem sum_filter_zipIdx_two {i j : ℕ} {y : α} (hij : i ≠ j) (hi : l[i]? = some x)
    (hj : l[j]? = some y) (f : α → M) :
    (((l.zipIdx.filter fun e => ¬(i = e.2 ∨ j = e.2)).map Prod.fst).map f).sum + f y + f x =
      (l.map f).sum := by
  classical
  have hx : (x, i) ∈ l.zipIdx := List.mk_mem_zipIdx_iff_getElem?.mpr hi
  have hy : (y, j) ∈ l.zipIdx := List.mk_mem_zipIdx_iff_getElem?.mpr hj
  have hrest : (l.zipIdx.filter fun e => ¬(i = e.2 ∨ j = e.2)) =
      (l.zipIdx.filter fun e => e ≠ (x, i)).filter fun e => e ≠ (y, j) := by
    rw [List.filter_filter]
    apply List.filter_congr
    rintro ⟨a, n⟩ ha
    have hget := List.mk_mem_zipIdx_iff_getElem?.mp ha
    have hxi : (a, n) = (x, i) ↔ i = n := by
      constructor
      · rintro ⟨⟩
        rfl
      · rintro rfl
        rw [Option.some.inj (hget.symm.trans hi)]
    have hyj : (a, n) = (y, j) ↔ j = n := by
      constructor
      · rintro ⟨⟩
        rfl
      · rintro rfl
        rw [Option.some.inj (hget.symm.trans hj)]
    simp only [ne_eq, hxi, hyj, not_or, Bool.decide_and, decide_not, Bool.and_comm]
  have hmem : (y, j) ∈ l.zipIdx.filter fun e => e ≠ (x, i) := by
    refine List.mem_filter.mpr ⟨hy, decide_eq_true fun h => hij ?_⟩
    exact (congrArg Prod.snd h).symm
  have hdrop := sum_filter_ne ((nodup_zipIdx l).filter fun e => decide (e ≠ (x, i))) hmem
    (f ∘ Prod.fst)
  have hwhole := sum_filter_ne (nodup_zipIdx l) hx (f ∘ Prod.fst)
  rw [List.map_map, hrest]
  calc _ = ((l.zipIdx.filter fun e => e ≠ (x, i)).map (f ∘ Prod.fst)).sum + f x :=
        congrArg (· + f x) hdrop
    _ = (l.zipIdx.map (f ∘ Prod.fst)).sum := hwhole
    _ = (l.map f).sum := by rw [← List.map_map, List.zipIdx_map_fst]

theorem sum_le_of_mem (hl : l.Nodup) {F : Finset α} {f : α → ℕ}
    (h : ∀ a ∈ F, f a ≠ 0 → a ∈ l) : ∑ a ∈ F, f a ≤ (l.map f).sum := by
  classical
  calc ∑ a ∈ F, f a ≤ ∑ a ∈ l.toFinset, f a :=
        Finset.sum_le_sum_of_ne_zero fun a ha hne => List.mem_toFinset.mpr (h a ha hne)
    _ = (l.map f).sum := List.sum_toFinset f hl

end Bifrost.Sums
