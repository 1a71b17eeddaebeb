import Mathlib.Data.List.Nodup

/-!
# Requests that wait for their answer

A request waits in `queue` under an id that is issued once. An answer takes it out and is noted
in `answered`. No id is answered twice, and none waits once it is answered.
-/

namespace Bifrost

set_option autoImplicit false

universe u v

variable {ι : Type u} {α : Type v}

structure Outstanding (issued : ι → Prop) (queue : ι → Option α) (answered : List ι) : Prop where
  waits : ∀ q, queue q ≠ none → issued q ∧ q ∉ answered
  answered_issued : ∀ q ∈ answered, issued q
  once : answered.Nodup

namespace Outstanding

variable {issued issued' : ι → Prop} {queue : ι → Option α} {answered : List ι}

theorem empty (issued : ι → Prop) : Outstanding issued (fun _ => (none : Option α)) [] where
  waits _ h := absurd rfl h
  answered_issued _ h := absurd h List.not_mem_nil
  once := List.nodup_nil

theorem issue (h : Outstanding issued queue answered) (hissued : ∀ q, issued q → issued' q) :
    Outstanding issued' queue answered where
  waits q hq := ⟨hissued q (h.waits q hq).1, (h.waits q hq).2⟩
  answered_issued q hq := hissued q (h.answered_issued q hq)
  once := h.once

theorem queue_eq_none (h : Outstanding issued queue answered) {q : ι} (hq : ¬issued q) :
    queue q = none := by
  by_contra hwaits
  exact hq (h.waits q hwaits).1

variable [DecidableEq ι]

theorem add (h : Outstanding issued queue answered) {q : ι} (hold : ¬issued q)
    (hnew : issued' q) (hissued : ∀ q, issued q → issued' q) (request : Option α) :
    Outstanding issued' (Function.update queue q request) answered where
  waits p hp := by
    by_cases hpq : p = q
    · rw [hpq]
      exact ⟨hnew, fun hmem => hold (h.answered_issued q hmem)⟩
    · rw [Function.update_of_ne hpq] at hp
      exact ⟨hissued p (h.waits p hp).1, (h.waits p hp).2⟩
  answered_issued p hp := hissued p (h.answered_issued p hp)
  once := h.once

theorem answer (h : Outstanding issued queue answered) {q : ι} (hq : queue q ≠ none) :
    Outstanding issued (Function.update queue q none) (answered ++ [q]) where
  waits p hp := by
    have hpq : p ≠ q := by
      rintro rfl
      exact hp (Function.update_self p none queue)
    rw [Function.update_of_ne hpq] at hp
    obtain ⟨hissued, hnot⟩ := h.waits p hp
    refine ⟨hissued, fun hmem => ?_⟩
    rcases List.mem_append.mp hmem with hmem | hmem
    · exact hnot hmem
    · exact hpq (List.mem_singleton.mp hmem)
  answered_issued p hp := by
    rcases List.mem_append.mp hp with hp | hp
    · exact h.answered_issued p hp
    · rw [List.mem_singleton.mp hp]
      exact (h.waits q hq).1
  once := by
    rw [List.nodup_append]
    refine ⟨h.once, List.nodup_singleton q, ?_⟩
    intro p hp p' hp'
    rw [List.mem_singleton] at hp'
    rintro rfl
    rw [hp'] at hp
    exact (h.waits q hq).2 hp

end Outstanding

end Bifrost
