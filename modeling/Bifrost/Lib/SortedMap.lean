import Mathlib.Data.List.Nodup
import Mathlib.Order.Lattice

/-!
# Maps in the order of their keys

A vector that is searched by bisection, or a `BTreeMap`: entries in increasing order of their
keys. Such a map is determined by what `get` finds.
-/

namespace Bifrost

set_option autoImplicit false

universe u v

/-- The entries come in increasing order of their keys. -/
structure SortedMap (κ : Type u) (β : Type v) [LinearOrder κ] where
  entries : List (κ × β)
  sorted : entries.Pairwise fun a b => a.1 < b.1
deriving DecidableEq

namespace SortedMap

variable {κ : Type u} {β : Type v} [LinearOrder κ]

def lookup (k : κ) : List (κ × β) → Option β
  | [] => none
  | e :: es => if e.1 = k then some e.2 else lookup k es

/-- The entry at its place, instead of the one it replaces. -/
def insertEntry (k : κ) (v : β) : List (κ × β) → List (κ × β)
  | [] => [(k, v)]
  | e :: es =>
    if k < e.1 then (k, v) :: e :: es
    else if e.1 = k then (k, v) :: es
    else e :: insertEntry k v es

theorem mem_insertEntry {k : κ} {v : β} {es : List (κ × β)} {e : κ × β}
    (h : e ∈ insertEntry k v es) : e = (k, v) ∨ e ∈ es := by
  induction es with
  | nil => exact Or.inl (List.mem_singleton.mp h)
  | cons d es ih =>
    unfold insertEntry at h
    split at h
    · exact List.mem_cons.mp h
    · split at h
      · rcases List.mem_cons.mp h with rfl | h
        · exact Or.inl rfl
        · exact Or.inr (List.mem_cons_of_mem d h)
      · rcases List.mem_cons.mp h with rfl | h
        · exact Or.inr List.mem_cons_self
        · exact (ih h).imp_right (List.mem_cons_of_mem d)

theorem sorted_insertEntry (k : κ) (v : β) {es : List (κ × β)}
    (h : es.Pairwise fun a b => a.1 < b.1) :
    (insertEntry k v es).Pairwise fun a b => a.1 < b.1 := by
  induction es with
  | nil => exact List.pairwise_singleton _ _
  | cons e es ih =>
    obtain ⟨hhead, htail⟩ := List.pairwise_cons.mp h
    unfold insertEntry
    split
    · rename_i hlt
      refine List.pairwise_cons.mpr ⟨fun d hd => ?_, h⟩
      rcases List.mem_cons.mp hd with rfl | hd
      · exact hlt
      · exact lt_trans hlt (hhead d hd)
    · split
      · rename_i heq
        exact List.pairwise_cons.mpr ⟨fun d hd => heq ▸ hhead d hd, htail⟩
      · rename_i hle hne
        refine List.pairwise_cons.mpr ⟨fun d hd => ?_, ih htail⟩
        rcases mem_insertEntry hd with rfl | hd
        · exact lt_of_le_of_ne (not_lt.mp hle) hne
        · exact hhead d hd

theorem lookup_insertEntry (k j : κ) (v : β) (es : List (κ × β)) :
    lookup j (insertEntry k v es) = if j = k then some v else lookup j es := by
  induction es with
  | nil => simp [insertEntry, lookup, eq_comm]
  | cons e es ih =>
    unfold insertEntry
    split
    · simp [lookup, eq_comm]
    · split
      · rename_i heq
        by_cases hj : j = k
        · simp [lookup, hj]
        · have hne : ¬k = j := fun h => hj h.symm
          simp [lookup, hj, hne, heq]
      · rename_i hne
        by_cases hj : j = k
        · rw [hj] at ih ⊢
          simp only [lookup, if_neg hne, ih]
        · rw [if_neg hj] at ih ⊢
          simp only [lookup, ih]

theorem lookup_eq_some {k : κ} {v : β} {es : List (κ × β)}
    (h : es.Pairwise fun a b => a.1 < b.1) : lookup k es = some v ↔ (k, v) ∈ es := by
  induction es with
  | nil => simp [lookup]
  | cons e es ih =>
    obtain ⟨hhead, htail⟩ := List.pairwise_cons.mp h
    unfold lookup
    split
    · rename_i heq
      rw [List.mem_cons, Option.some_inj]
      constructor
      · rintro rfl
        exact Or.inl (Prod.ext heq.symm rfl)
      · rintro (rfl | hmem)
        · rfl
        · exact absurd heq (ne_of_lt (hhead _ hmem))
    · rename_i hne
      rw [ih htail, List.mem_cons]
      refine ⟨Or.inr, fun hmem => hmem.resolve_left ?_⟩
      rintro rfl
      exact hne rfl

theorem lookup_filter (k j : κ) (es : List (κ × β)) :
    lookup j (es.filter fun e => e.1 ≠ k) = if j = k then none else lookup j es := by
  induction es with
  | nil => simp [lookup]
  | cons e es ih =>
    by_cases he : e.1 = k
    · rw [List.filter_cons_of_neg (by simp [he]), ih]
      by_cases hj : j = k
      · simp [hj]
      · have hne : ¬e.1 = j := fun h => hj (h ▸ he)
        simp [hj, lookup, hne]
    · rw [List.filter_cons_of_pos (by simp [he])]
      by_cases hj : j = k
      · rw [hj] at ih ⊢
        simp only [lookup, if_neg he, ih]
      · rw [if_neg hj] at ih ⊢
        simp only [lookup, ih]

instance : EmptyCollection (SortedMap κ β) := ⟨⟨[], List.Pairwise.nil⟩⟩

def get (m : SortedMap κ β) (k : κ) : Option β := lookup k m.entries

def insert (m : SortedMap κ β) (k : κ) (v : β) : SortedMap κ β :=
  ⟨insertEntry k v m.entries, sorted_insertEntry k v m.sorted⟩

def erase (m : SortedMap κ β) (k : κ) : SortedMap κ β :=
  ⟨m.entries.filter fun e => e.1 ≠ k, m.sorted.filter _⟩

def length (m : SortedMap κ β) : ℕ := m.entries.length

variable {m m' : SortedMap κ β} {k j : κ} {v w : β}

@[simp] theorem get_empty (k : κ) : (∅ : SortedMap κ β).get k = none := rfl

@[simp] theorem entries_empty : (∅ : SortedMap κ β).entries = [] := rfl

theorem get_insert (m : SortedMap κ β) (k j : κ) (v : β) :
    (m.insert k v).get j = if j = k then some v else m.get j := lookup_insertEntry k j v m.entries

@[simp] theorem get_insert_self (m : SortedMap κ β) (k : κ) (v : β) :
    (m.insert k v).get k = some v := by simp [get_insert]

theorem get_erase (m : SortedMap κ β) (k j : κ) :
    (m.erase k).get j = if j = k then none else m.get j := lookup_filter k j m.entries

theorem mem_entries : (k, v) ∈ m.entries ↔ m.get k = some v := (lookup_eq_some m.sorted).symm

end SortedMap

end Bifrost
