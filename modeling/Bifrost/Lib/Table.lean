import Mathlib.Data.List.AList
import Mathlib.Algebra.Order.BigOperators.Group.List
import Mathlib.Algebra.Order.Ring.Nat

/-!
# Storage maps

A map with finitely many keys, read with `get` and changed one key at a time with `write`
(`write t k none` removes the key). `sum f t` adds `f` up over the entries; one lemma,
`sum_write`, says how a write moves every such sum.
-/

namespace Bifrost

set_option autoImplicit false

universe u v

def Table (κ : Type u) (β : Type v) : Type (max u v) := AList fun _ : κ => β

namespace Table

variable {κ : Type u} {β : Type v}

instance : EmptyCollection (Table κ β) := ⟨(∅ : AList fun _ : κ => β)⟩

def entries (t : Table κ β) : List (κ × β) := (AList.entries t).map fun e => (e.1, e.2)

def keys (t : Table κ β) : List κ := t.entries.map Prod.fst

section Access

variable [DecidableEq κ]

def get (t : Table κ β) (k : κ) : Option β := AList.lookup k t

def write (t : Table κ β) (k : κ) : Option β → Table κ β
  | some v => AList.insert k v t
  | none => AList.erase k t

@[simp] theorem get_empty (k : κ) : get (∅ : Table κ β) k = none := AList.lookup_empty k

theorem get_write (t : Table κ β) (k j : κ) (o : Option β) :
    get (write t k o) j = if j = k then o else get t j := by
  by_cases h : j = k
  · subst h
    rw [if_pos rfl]
    cases o with
    | none => exact AList.lookup_erase j t
    | some v => exact AList.lookup_insert t
  · rw [if_neg h]
    cases o with
    | none => exact AList.lookup_erase_ne h
    | some v => exact AList.lookup_insert_ne h

@[simp] theorem get_write_self (t : Table κ β) (k : κ) (o : Option β) :
    get (write t k o) k = o := by simp [get_write]

theorem get_write_ne (t : Table κ β) {k j : κ} (o : Option β) (h : j ≠ k) :
    get (write t k o) j = get t j := by simp [get_write, h]

theorem get_write_eq (t : Table κ β) (k : κ) (o : Option β) :
    get (write t k o) = Function.update (get t) k o := by
  funext j
  rw [get_write, Function.update_apply]

theorem mem_entries {t : Table κ β} {k : κ} {v : β} : (k, v) ∈ t.entries ↔ get t k = some v := by
  have h := AList.mem_lookup_iff (a := k) (b := v) (s := t)
  rw [Option.mem_def] at h
  rw [get, h]
  simp only [entries, List.mem_map]
  constructor
  · rintro ⟨⟨a, b⟩, he, heq⟩
    cases heq
    exact he
  · intro he
    exact ⟨⟨k, v⟩, he, rfl⟩

end Access

theorem keys_nodup (t : Table κ β) : t.keys.Nodup := by
  have h := AList.keys_nodup t
  simpa [keys, entries, AList.keys, List.keys, Function.comp_def] using h

@[simp] theorem entries_empty : (∅ : Table κ β).entries = [] := rfl

theorem map_kerase [DecidableEq κ] {l : List (Sigma fun _ : κ => β)} (hl : (l.map Sigma.fst).Nodup)
    (k : κ) : (List.kerase k l).map (fun e => (e.1, e.2)) =
      (l.map fun e => (e.1, e.2)).filter fun e => e.1 ≠ k := by
  induction l with
  | nil => rfl
  | cons e l ih =>
    obtain ⟨hhead, htail⟩ := List.nodup_cons.mp hl
    by_cases h : k = e.1
    · obtain ⟨a, b⟩ := e
      subst h
      have hrest : (l.map fun e => (e.1, e.2)).filter (fun e => e.1 ≠ k) =
          l.map fun e => (e.1, e.2) := by
        apply List.filter_eq_self.mpr
        intro x hx
        obtain ⟨y, hy, rfl⟩ := List.mem_map.mp hx
        have hne : y.1 ≠ k := by
          rintro rfl
          exact hhead (List.mem_map.mpr ⟨y, hy, rfl⟩)
        exact decide_eq_true hne
      have herase : List.kerase k (⟨k, b⟩ :: l) = l := List.kerase_cons_eq rfl
      rw [herase, List.map_cons, List.filter_cons_of_neg (by simp), hrest]
    · rw [List.kerase_cons_ne h, List.map_cons, List.map_cons,
        List.filter_cons_of_pos (by simpa using Ne.symm h), ih htail]

theorem entries_write [DecidableEq κ] (t : Table κ β) (k : κ) (o : Option β) :
    (write t k o).entries =
      (o.map fun v => (k, v)).toList ++ t.entries.filter fun e => e.1 ≠ k := by
  have hl : ((AList.entries t).map Sigma.fst).Nodup := AList.keys_nodup t
  cases o with
  | none =>
    have he : (write t k none).entries =
        (List.kerase k (AList.entries t)).map fun e => (e.1, e.2) := rfl
    rw [he, map_kerase hl]
    rfl
  | some v =>
    have he : (write t k (some v)).entries =
        (k, v) :: (List.kerase k (AList.entries t)).map fun e => (e.1, e.2) := by
      have hi : AList.entries (AList.insert k v t) = ⟨k, v⟩ :: List.kerase k (AList.entries t) :=
        AList.entries_insert
      simp only [entries, write, hi, List.map_cons]
    rw [he, map_kerase hl]
    rfl

/-! Sums over the entries. -/

def sum (f : κ → β → ℕ) (t : Table κ β) : ℕ := (t.entries.map fun e => f e.1 e.2).sum

@[simp] theorem sum_empty (f : κ → β → ℕ) : sum f (∅ : Table κ β) = 0 := rfl

def weight (f : κ → β → ℕ) (k : κ) (o : Option β) : ℕ := o.elim 0 (f k)

@[simp] theorem weight_none (f : κ → β → ℕ) (k : κ) : weight f k none = 0 := rfl
@[simp] theorem weight_some (f : κ → β → ℕ) (k : κ) (v : β) : weight f k (some v) = f k v := rfl

theorem sum_congr {f g : κ → β → ℕ} {t : Table κ β} (h : ∀ e ∈ t.entries, f e.1 e.2 = g e.1 e.2) :
    sum f t = sum g t := by
  unfold sum
  rw [List.map_congr_left h]

theorem sum_le_sum {f g : κ → β → ℕ} {t : Table κ β}
    (h : ∀ e ∈ t.entries, f e.1 e.2 ≤ g e.1 e.2) : sum f t ≤ sum g t :=
  List.sum_le_sum h

theorem sum_add (f g : κ → β → ℕ) (t : Table κ β) :
    sum (fun k v => f k v + g k v) t = sum f t + sum g t := by
  simp [sum, List.sum_map_add]

theorem sum_mul (c : ℕ) (f : κ → β → ℕ) (t : Table κ β) :
    sum (fun k v => c * f k v) t = c * sum f t := by
  unfold sum
  induction t.entries with
  | nil => rfl
  | cons e l ih => rw [List.map_cons, List.sum_cons, List.map_cons, List.sum_cons, ih, Nat.mul_add]

theorem sum_zero (t : Table κ β) : sum (fun _ _ => 0) t = 0 := by
  simp [sum]

section Write

variable [DecidableEq κ]

theorem sum_kerase (f : κ → β → ℕ) (k : κ) (l : List (Sigma fun _ : κ => β)) :
    ((List.kerase k l).map fun e => f e.1 e.2).sum + weight f k (List.dlookup k l) =
      (l.map fun e => f e.1 e.2).sum := by
  induction l with
  | nil => rfl
  | cons e l ih =>
    by_cases h : k = e.1
    · obtain ⟨a, b⟩ := e
      subst h
      simp [List.kerase_cons_eq, Nat.add_comm]
    · obtain ⟨a, b⟩ := e
      rw [List.kerase_cons_ne h, List.dlookup_cons_ne l ⟨a, b⟩ h]
      simp only [List.map_cons, List.sum_cons]
      omega

theorem sum_write (f : κ → β → ℕ) (t : Table κ β) (k : κ) (o : Option β) :
    sum f (write t k o) + weight f k (get t k) = sum f t + weight f k o := by
  have h := sum_kerase f k (AList.entries t)
  have hg : weight f k (get t k) = weight f k (List.dlookup k (AList.entries t)) := rfl
  have hs : sum f t = ((AList.entries t).map fun e => f e.1 e.2).sum := by
    simp [sum, entries, Function.comp_def]
  rw [hg, hs, ← h]
  cases o with
  | none =>
    have he : sum f (write t k none) =
        ((List.kerase k (AList.entries t)).map fun e => f e.1 e.2).sum := by
      have hi : AList.entries (AList.erase k t) = List.kerase k (AList.entries t) := rfl
      simp [sum, entries, write, hi, Function.comp_def]
    rw [he, weight_none]
    omega
  | some v =>
    have he : sum f (write t k (some v)) =
        f k v + ((List.kerase k (AList.entries t)).map fun e => f e.1 e.2).sum := by
      have hi : AList.entries (AList.insert k v t) = ⟨k, v⟩ :: List.kerase k (AList.entries t) :=
        AList.entries_insert
      simp [sum, entries, write, hi, Function.comp_def]
    rw [he, weight_some]
    omega

theorem sum_off {f g : κ → β → ℕ} (t : Table κ β) (k : κ)
    (h : ∀ j v, j ≠ k → get t j = some v → f j v = g j v) :
    sum f t + weight g k (get t k) = sum g t + weight f k (get t k) := by
  have hf := sum_write f t k none
  have hg := sum_write g t k none
  have heq : sum f (write t k none) = sum g (write t k none) := by
    apply sum_congr
    rintro ⟨j, v⟩ he
    have hget := mem_entries.mp he
    rw [get_write] at hget
    split at hget
    · contradiction
    · exact h j v (by assumption) hget
  simp only [weight_none] at hf hg
  omega

theorem sum_single (t : Table κ β) (k : κ) (f : β → ℕ) :
    sum (fun j v => if j = k then f v else 0) t = (get t k).elim 0 f := by
  have hoff := sum_off (f := fun j v => if j = k then f v else 0) (g := fun _ _ => 0) t k
    (fun j v hj _ => if_neg hj)
  rw [sum_zero] at hoff
  cases hget : get t k with
  | none =>
    rw [hget] at hoff
    exact hoff
  | some v =>
    rw [hget] at hoff
    simp only [weight_some, if_true] at hoff
    simp only [Option.elim_some]
    omega

theorem le_sum (f : κ → β → ℕ) {t : Table κ β} {k : κ} {v : β} (h : get t k = some v) :
    f k v ≤ sum f t :=
  List.single_le_sum (fun _ _ => Nat.zero_le _) _
    (List.mem_map.mpr ⟨(k, v), mem_entries.mpr h, rfl⟩)

end Write

def ofList [DecidableEq κ] (l : List (κ × β)) : Table κ β :=
  l.foldl (fun t e => t.write e.1 (some e.2)) ∅

/-! Entries written one after the other: of those with one key, the last stays. -/

section WriteAll

variable [DecidableEq κ]

def writeAll (t : Table κ β) (l : List (κ × β)) : Table κ β :=
  l.foldl (fun t e => t.write e.1 (some e.2)) t

/-- The entries whose key does not come again. -/
def lasting : List (κ × β) → List (κ × β)
  | [] => []
  | e :: l => if e.1 ∈ l.map Prod.fst then lasting l else e :: lasting l

theorem sum_writeAll (f : κ → β → ℕ) (t : Table κ β) (l : List (κ × β)) :
    sum f (writeAll t l) = sum (fun k v => if k ∈ l.map Prod.fst then 0 else f k v) t +
      ((lasting l).map fun e => f e.1 e.2).sum := by
  induction l generalizing t with
  | nil => simp [writeAll, lasting]
  | cons e l ih =>
    obtain ⟨k, v⟩ := e
    -- What `l` does not write: the entries of `t` off `k`, and the new one at `k`.
    have hwrite := sum_write (fun j u => if j ∈ l.map Prod.fst then 0 else f j u) t k (some v)
    have hoff := sum_off (f := fun j u => if j ∈ l.map Prod.fst then 0 else f j u)
      (g := fun j u => if j ∈ ((k, v) :: l).map Prod.fst then 0 else f j u) t k (by
        intro j u hj _
        have hmem : j ∈ ((k, v) :: l).map Prod.fst ↔ j ∈ l.map Prod.fst := by
          rw [List.map_cons, List.mem_cons]
          exact or_iff_right hj
        simp only [hmem])
    have hzero : weight (fun j u => if j ∈ ((k, v) :: l).map Prod.fst then 0 else f j u) k
        (get t k) = 0 := by
      cases get t k with
      | none => rfl
      | some u => simp
    have hstart : writeAll t ((k, v) :: l) = writeAll (write t k (some v)) l := rfl
    rw [hstart, ih]
    rw [lasting]
    split
    · rename_i hmem
      rw [weight_some, if_pos hmem] at hwrite
      omega
    · rename_i hmem
      rw [weight_some, if_neg hmem] at hwrite
      have hsum : (((k, v) :: lasting l).map fun e => f e.1 e.2).sum =
          f k v + ((lasting l).map fun e => f e.1 e.2).sum := by
        rw [List.map_cons, List.sum_cons]
      omega

end WriteAll

/-! One map changed at every key of another. -/

section Update

universe w

variable [DecidableEq κ] {α : Type w}

def update (t : Table κ β) (es : Table κ α) (f : κ → α → Option β → Option β) : Table κ β :=
  es.entries.foldl (fun t e => t.write e.1 (f e.1 e.2 (t.get e.1))) t

theorem get_foldl_of_notMem {f : κ → α → Option β → Option β} {l : List (κ × α)} {k : κ}
    (hk : k ∉ l.map Prod.fst) (t : Table κ β) :
    get (l.foldl (fun t e => t.write e.1 (f e.1 e.2 (t.get e.1))) t) k = get t k := by
  induction l generalizing t with
  | nil => rfl
  | cons e l ih =>
    simp only [List.map_cons, List.mem_cons, not_or] at hk
    rw [List.foldl_cons, ih hk.2, get_write_ne t _ hk.1]

theorem get_foldl_of_mem {f : κ → α → Option β → Option β} {l : List (κ × α)} {k : κ} {a : α}
    (hl : (l.map Prod.fst).Nodup) (hk : (k, a) ∈ l) (t : Table κ β) :
    get (l.foldl (fun t e => t.write e.1 (f e.1 e.2 (t.get e.1))) t) k = f k a (get t k) := by
  induction l generalizing t with
  | nil => exact absurd hk List.not_mem_nil
  | cons e l ih =>
    obtain ⟨hhead, htail⟩ := List.nodup_cons.mp hl
    rw [List.foldl_cons]
    rcases List.mem_cons.mp hk with rfl | hk
    · rw [get_foldl_of_notMem hhead, get_write_self]
    · have hne : k ≠ e.1 := by
        rintro rfl
        exact hhead (List.mem_map.mpr ⟨(e.1, a), hk, rfl⟩)
      rw [ih htail hk, get_write_ne t _ hne]

theorem get_update (t : Table κ β) (es : Table κ α) (f : κ → α → Option β → Option β) (k : κ) :
    get (update t es f) k = (get es k).elim (get t k) fun a => f k a (get t k) := by
  unfold update
  cases h : get es k with
  | none =>
    apply get_foldl_of_notMem
    intro hmem
    obtain ⟨e, he, rfl⟩ := List.mem_map.mp hmem
    rw [mem_entries.mp he] at h
    contradiction
  | some a => exact get_foldl_of_mem es.keys_nodup (mem_entries.mpr h) t

end Update

end Table

end Bifrost
