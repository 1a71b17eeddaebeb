import Bifrost.Lib.Table

/-!
# Records with a grouped index

Records carry an amount and a key. An index keeps, for each key, the total of the records
under it and the list of their ids. `Indexes` says that the index lists only what there is,
each once and under its key, that its totals are right and that no record of positive
amount is missing. Inserting a fresh record and taking an amount off a record keep it,
when the index is changed as `Group.insert` and `Group.reduce` do.
-/

namespace Bifrost

set_option autoImplicit false

universe u v w

structure Group (ι : Type u) where
  total : ℕ
  ids : List ι
deriving DecidableEq

namespace Group

variable {ι : Type u}

/-- The group after a record of amount `n` joins it. -/
def insert (g : Option (Group ι)) (id : ι) (n : ℕ) : Group ι :=
  match g with
  | some g => ⟨g.total + n, g.ids ++ [id]⟩
  | none => ⟨n, [id]⟩

/-- The group after `n` is taken off a record, which is gone if `whole`. A group whose total
is used up is dropped. -/
def reduce [DecidableEq ι] (g : Group ι) (id : ι) (n : ℕ) (whole : Bool) : Option (Group ι) :=
  if g.total ≤ n then none
  else some ⟨g.total - n, if whole then g.ids.filter (· ≠ id) else g.ids⟩

end Group

namespace GroupIndex

variable {ι : Type u} {κ : Type v} {ρ : Type w} [DecidableEq ι] [DecidableEq κ]
variable (amount : ρ → ℕ) (key : ρ → κ)

def amountAt (records : Table ι ρ) (id : ι) : ℕ := (records.get id).elim 0 amount

def stored (records : Table ι ρ) : ℕ := records.sum fun _ r => amount r

def indexed (groups : Table κ (Group ι)) : ℕ := groups.sum fun _ g => g.total

structure Indexes (records : Table ι ρ) (groups : Table κ (Group ι)) : Prop where
  nodup : ∀ k g, groups.get k = some g → g.ids.Nodup
  live : ∀ k g, groups.get k = some g → ∀ id ∈ g.ids, ∃ r, records.get id = some r ∧ key r = k
  total : ∀ k g, groups.get k = some g → g.total = (g.ids.map (amountAt amount records)).sum
  listed : ∀ id r, records.get id = some r → 0 < amount r →
    ∃ g, groups.get (key r) = some g ∧ id ∈ g.ids

variable {amount key} {records : Table ι ρ} {groups : Table κ (Group ι)} {id : ι}

theorem amountAt_of_get {r : ρ} (h : records.get id = some r) :
    amountAt amount records id = amount r := by
  simp [amountAt, h]

theorem amountAt_write_self (id : ι) (o : Option ρ) :
    amountAt amount (records.write id o) id = o.elim 0 amount := by
  simp [amountAt]

theorem amountAt_write_ne {id j : ι} (o : Option ρ) (h : j ≠ id) :
    amountAt amount (records.write id o) j = amountAt amount records j := by
  simp [amountAt, Table.get_write_ne _ _ h]

theorem stored_write (amount : ρ → ℕ) (records : Table ι ρ) (id : ι) (o : Option ρ) :
    stored amount (records.write id o) + amountAt amount records id =
      stored amount records + o.elim 0 amount :=
  Table.sum_write _ _ _ _

omit [DecidableEq ι] in
theorem indexed_write (groups : Table κ (Group ι)) (k : κ) (o : Option (Group ι)) :
    indexed (groups.write k o) + (groups.get k).elim 0 Group.total =
      indexed groups + o.elim 0 Group.total :=
  Table.sum_write _ _ _ _

theorem sum_amountAt_write (amount : ρ → ℕ) (records : Table ι ρ) {ids : List ι}
    (hnodup : ids.Nodup) (hid : id ∈ ids) (o : Option ρ) :
    (ids.map (amountAt amount (records.write id o))).sum + amountAt amount records id =
      (ids.map (amountAt amount records)).sum + o.elim 0 amount := by
  induction ids with
  | nil => simp at hid
  | cons j ids ih =>
    rw [List.nodup_cons] at hnodup
    simp only [List.map_cons, List.sum_cons]
    by_cases hj : j = id
    · subst j
      have hrest : ids.map (amountAt amount (records.write id o)) =
          ids.map (amountAt amount records) := by
        apply List.map_congr_left
        intro j hj
        apply amountAt_write_ne
        rintro rfl
        exact hnodup.1 hj
      rw [hrest, amountAt_write_self]
      omega
    · have hmem : id ∈ ids := by
        rcases List.mem_cons.mp hid with h | h
        · exact absurd h.symm hj
        · exact h
      have h := ih hnodup.2 hmem
      rw [amountAt_write_ne o hj]
      omega

theorem sum_amountAt_unlisted (amount : ρ → ℕ) (records : Table ι ρ) {ids : List ι}
    (hid : id ∉ ids) (o : Option ρ) :
    (ids.map (amountAt amount (records.write id o))).sum =
      (ids.map (amountAt amount records)).sum := by
  congr 1
  apply List.map_congr_left
  intro j hj
  apply amountAt_write_ne
  rintro rfl
  exact hid hj

theorem sum_amountAt_filter {ids : List ι} (h : records.get id = none) :
    ((ids.filter (· ≠ id)).map (amountAt amount records)).sum =
      (ids.map (amountAt amount records)).sum := by
  induction ids with
  | nil => rfl
  | cons j ids ih =>
    by_cases hj : j = id
    · subst j
      have h0 : amountAt amount records id = 0 := by simp [amountAt, h]
      rw [List.filter_cons_of_neg (by simp), ih, List.map_cons, List.sum_cons, h0, Nat.zero_add]
    · rw [List.filter_cons_of_pos (by simpa using hj)]
      simp only [List.map_cons, List.sum_cons, ih]

namespace Indexes

theorem amount_le_total (hs : Indexes amount key records groups) {k : κ} {g : Group ι}
    (hg : groups.get k = some g) (hid : id ∈ g.ids) :
    amountAt amount records id ≤ g.total := by
  rw [hs.total k g hg]
  exact List.single_le_sum (fun _ _ => Nat.zero_le _) _ (List.mem_map.mpr ⟨id, hid, rfl⟩)

theorem key_unique (hs : Indexes amount key records groups) {k j : κ} {g h : Group ι}
    (hg : groups.get k = some g) (hh : groups.get j = some h) (hk : id ∈ g.ids)
    (hj : id ∈ h.ids) : k = j := by
  obtain ⟨r, hr, rfl⟩ := hs.live k g hg id hk
  obtain ⟨r', hr', rfl⟩ := hs.live j h hh id hj
  rw [hr] at hr'
  cases hr'
  rfl

theorem not_listed_of_fresh (hs : Indexes amount key records groups)
    (hid : records.get id = none) {k : κ} {g : Group ι} (hg : groups.get k = some g) :
    id ∉ g.ids := by
  intro hmem
  obtain ⟨r, hr, -⟩ := hs.live k g hg id hmem
  rw [hid] at hr
  contradiction

theorem listed_or_zero (hs : Indexes amount key records groups) {r : ρ}
    (hr : records.get id = some r) {g : Group ι} (hg : groups.get (key r) = some g) :
    id ∈ g.ids ∨ amount r = 0 := by
  rcases Nat.eq_zero_or_pos (amount r) with h0 | hpos
  · exact Or.inr h0
  · obtain ⟨g', hg', hid⟩ := hs.listed id r hr hpos
    rw [hg] at hg'
    cases hg'
    exact Or.inl hid

theorem amount_le (hs : Indexes amount key records groups) {r : ρ}
    (hr : records.get id = some r) {g : Group ι} (hg : groups.get (key r) = some g) :
    amount r ≤ g.total := by
  rcases hs.listed_or_zero hr hg with hid | h0
  · have h := hs.amount_le_total hg hid
    rwa [amountAt_of_get hr] at h
  · omega

theorem empty : Indexes amount key (∅ : Table ι ρ) (∅ : Table κ (Group ι)) where
  nodup k g h := by simp at h
  live k g h := by simp at h
  total k g h := by simp at h
  listed id r h := by simp at h

/-- A fresh record joins its group. -/
theorem insert (hs : Indexes amount key records groups) (hid : records.get id = none) (r : ρ) :
    Indexes amount key (records.write id (some r))
      (groups.write (key r) (some (Group.insert (groups.get (key r)) id (amount r)))) := by
  have hold : ∀ k g, groups.get k = some g → ∀ j ∈ g.ids, j ≠ id := by
    rintro k g hg j hj rfl
    exact hs.not_listed_of_fresh hid hg hj
  have hsum : ∀ k g, groups.get k = some g →
      (g.ids.map (amountAt amount (records.write id (some r)))).sum = g.total := by
    intro k g hg
    rw [hs.total k g hg]
    exact sum_amountAt_unlisted amount records (hs.not_listed_of_fresh hid hg) _
  have hself : amountAt amount (records.write id (some r)) id = amount r :=
    amountAt_write_self _ _
  refine ⟨?_, ?_, ?_, ?_⟩
  · intro k g hg
    rw [Table.get_write] at hg
    split at hg
    · cases hg
      unfold Group.insert
      split
      · rename_i g' hg'
        apply List.nodup_append.mpr
        refine ⟨hs.nodup _ _ hg', List.nodup_singleton _, ?_⟩
        intro a ha b hb
        have hb' := List.mem_singleton.mp hb
        subst b
        exact hold _ _ hg' a ha
      · exact List.nodup_singleton _
    · exact hs.nodup k g hg
  · intro k g hg j hj
    rw [Table.get_write] at hg
    split at hg
    · subst k
      cases hg
      have hcase : j = id ∨ ∃ g', groups.get (key r) = some g' ∧ j ∈ g'.ids := by
        unfold Group.insert at hj
        split at hj
        · rename_i g' hg'
          rcases List.mem_append.mp hj with hj | hj
          · exact Or.inr ⟨g', hg', hj⟩
          · exact Or.inl (List.mem_singleton.mp hj)
        · exact Or.inl (List.mem_singleton.mp hj)
      rcases hcase with rfl | ⟨g', hg', hj⟩
      · exact ⟨r, Table.get_write_self _ _ _, rfl⟩
      · rw [Table.get_write_ne _ _ (hold _ _ hg' j hj)]
        exact hs.live _ _ hg' j hj
    · rw [Table.get_write_ne _ _ (hold _ _ hg j hj)]
      exact hs.live _ _ hg j hj
  · intro k g hg
    rw [Table.get_write] at hg
    split at hg
    · cases hg
      unfold Group.insert
      split
      · rename_i g' hg'
        simp only [List.map_append, List.sum_append, List.map_cons, List.map_nil, List.sum_cons,
          List.sum_nil, hself, hsum _ _ hg']
        omega
      · simp [hself]
    · exact (hsum k g hg).symm
  · intro j r' hj hpos
    rw [Table.get_write] at hj
    split at hj
    · subst j
      cases hj
      refine ⟨_, Table.get_write_self _ _ _, ?_⟩
      unfold Group.insert
      split <;> simp
    · obtain ⟨g, hg, hmem⟩ := hs.listed j r' hj hpos
      rw [Table.get_write]
      split
      · rename_i hk
        refine ⟨_, rfl, ?_⟩
        rw [← hk, hg]
        exact List.mem_append_left _ hmem
      · exact ⟨g, hg, hmem⟩

/-- An amount is taken off a record and off its group; a record that is used up goes. -/
theorem reduce (hs : Indexes amount key records groups) {r : ρ}
    (hr : records.get id = some r) {g : Group ι} (hg : groups.get (key r) = some g) {n : ℕ}
    (hn : n ≤ amount r) {r' : ρ} (hkey : key r' = key r) (hamount : amount r' + n = amount r) :
    Indexes amount key
      (records.write id (if amount r ≤ n then none else some r'))
      (groups.write (key r) (g.reduce id n (decide (amount r ≤ n)))) := by
  have hleft : (if amount r ≤ n then none else some r').elim 0 amount + n = amount r := by
    split
    · simp only [Option.elim_none]
      omega
    · exact hamount
  have hother : ∀ k g', k ≠ key r → groups.get k = some g' → id ∉ g'.ids := by
    intro k g' hk hg' hmem
    obtain ⟨r₀, hr₀, hk₀⟩ := hs.live k g' hg' id hmem
    rw [hr] at hr₀
    cases hr₀
    exact hk hk₀.symm
  -- The list of the group, with the used up record left out, and its new sum.
  have hkept : ∀ j, j ∈ (if decide (amount r ≤ n) then g.ids.filter (· ≠ id) else g.ids) ↔
      j ∈ g.ids ∧ (j = id → n < amount r) := by
    intro j
    by_cases hw : amount r ≤ n
    · simp only [hw, decide_true, if_true, List.mem_filter, decide_eq_true_eq]
      constructor
      · rintro ⟨hj, hne⟩
        exact ⟨hj, fun h => absurd h hne⟩
      · rintro ⟨hj, hlt⟩
        refine ⟨hj, fun h => ?_⟩
        have := hlt h
        omega
    · simp only [hw, decide_false]
      exact ⟨fun hj => ⟨hj, fun _ => by omega⟩, fun hj => hj.1⟩
  have hsum : ((if decide (amount r ≤ n) then g.ids.filter (· ≠ id) else g.ids).map (amountAt amount
      (records.write id (if amount r ≤ n then none else some r')))).sum + n = g.total := by
    have htotal := hs.total _ _ hg
    have hfull : (g.ids.map (amountAt amount
        (records.write id (if amount r ≤ n then none else some r')))).sum + n = g.total := by
      rcases hs.listed_or_zero hr hg with hid | h0
      · have h := sum_amountAt_write amount records (hs.nodup _ _ hg) hid
          (if amount r ≤ n then none else some r')
        rw [amountAt_of_get hr] at h
        omega
      · by_cases hid : id ∈ g.ids
        · have h := sum_amountAt_write amount records (hs.nodup _ _ hg) hid
            (if amount r ≤ n then none else some r')
          rw [amountAt_of_get hr] at h
          omega
        · have h := sum_amountAt_unlisted amount records hid
            (if amount r ≤ n then none else some r')
          omega
    by_cases hw : amount r ≤ n
    · rw [← hfull]
      simp only [hw, decide_true, if_true]
      rw [sum_amountAt_filter (Table.get_write_self _ _ _)]
    · rw [← hfull]
      simp only [hw, decide_false]
      rfl
  refine ⟨?_, ?_, ?_, ?_⟩
  · intro k g' hg'
    rw [Table.get_write] at hg'
    split at hg'
    · unfold Group.reduce at hg'
      split at hg'
      · contradiction
      · cases hg'
        split
        · exact (hs.nodup (key r) g hg).filter _
        · exact hs.nodup (key r) g hg
    · exact hs.nodup k g' hg'
  · intro k g' hg' j hj
    rw [Table.get_write] at hg'
    split at hg'
    · unfold Group.reduce at hg'
      split at hg'
      · contradiction
      · cases hg'
        subst k
        obtain ⟨hjg, hjid⟩ := (hkept j).mp hj
        rw [Table.get_write]
        split
        · have hlt := hjid (by assumption)
          rw [if_neg (by omega)]
          exact ⟨r', rfl, hkey⟩
        · exact hs.live _ _ hg j hjg
    · rename_i hk
      have hne : j ≠ id := by
        rintro rfl
        exact hother k g' hk hg' hj
      rw [Table.get_write_ne _ _ hne]
      exact hs.live k g' hg' j hj
  · intro k g' hg'
    rw [Table.get_write] at hg'
    split at hg'
    · unfold Group.reduce at hg'
      split at hg'
      · contradiction
      · cases hg'
        simp only
        omega
    · rename_i hk
      rw [hs.total k g' hg', sum_amountAt_unlisted amount records (hother k g' hk hg')]
  · intro j r₀ hj hpos
    rw [Table.get_write] at hj
    have hsurvives : ∀ i ∈ g.ids, (i = id → n < amount r) →
        0 < amountAt amount (records.write id (if amount r ≤ n then none else some r')) i →
        ∃ g', (groups.write (key r) (g.reduce id n (decide (amount r ≤ n)))).get (key r) =
          some g' ∧ i ∈ g'.ids := by
      intro i hi hlt hpos
      rw [Table.get_write_self]
      unfold Group.reduce
      have hmem := (hkept i).mpr ⟨hi, hlt⟩
      have hle := List.single_le_sum (fun _ _ => Nat.zero_le _) _
        (List.mem_map.mpr ⟨i, hmem, rfl⟩ : amountAt amount
          (records.write id (if amount r ≤ n then none else some r')) i ∈ _)
      rw [if_neg (by omega)]
      exact ⟨_, rfl, hmem⟩
    split at hj
    · subst j
      split at hj
      · contradiction
      · cases hj
        rw [hkey]
        rcases hs.listed_or_zero hr hg with hid | h0
        · apply hsurvives id hid
          · intro _
            omega
          · rw [amountAt_write_self, if_neg (by assumption)]
            exact hpos
        · omega
    · rename_i hne
      obtain ⟨g', hg', hmem⟩ := hs.listed j r₀ hj hpos
      by_cases hk : key r₀ = key r
      · rw [hk] at hg' ⊢
        rw [hg] at hg'
        cases hg'
        apply hsurvives j hmem
        · intro h
          exact absurd h hne
        · rw [amountAt_write_ne _ hne, amountAt_of_get hj]
          exact hpos
      · rw [Table.get_write_ne _ _ hk]
        exact ⟨g', hg', hmem⟩

/-- When no record is empty, the lists hold every id there is once, and no other. -/
theorem count_ids (hs : Indexes amount key records groups)
    (hpos : ∀ id r, records.get id = some r → 0 < amount r) (id : ι) :
    groups.sum (fun _ g => g.ids.count id) = if (records.get id).isSome then 1 else 0 := by
  cases hid : records.get id with
  | none =>
    have hzero : groups.sum (fun _ g => g.ids.count id) = groups.sum fun _ _ => 0 := by
      apply Table.sum_congr
      rintro ⟨k, g⟩ he
      exact List.count_eq_zero.mpr (hs.not_listed_of_fresh hid (Table.mem_entries.mp he))
    rw [hzero, Table.sum_zero]
    rfl
  | some r =>
    obtain ⟨g, hg, hmem⟩ := hs.listed id r hid (hpos id r hid)
    have hoff := Table.sum_off (f := fun _ g => g.ids.count id) (g := fun _ _ => 0) groups (key r)
      (by
        intro j h hj hh
        apply List.count_eq_zero.mpr
        intro hmem'
        exact hj (hs.key_unique hh hg hmem' hmem))
    have hone := List.count_eq_one_of_mem (hs.nodup _ _ hg) hmem
    simp only [hg, Table.weight_some, Table.sum_zero, Nat.zero_add, Nat.add_zero] at hoff
    simpa [hoff] using hone

end Indexes

/-! The sums over all records and over all groups move together. -/

theorem stored_insert (hid : records.get id = none) (r : ρ) :
    stored amount (records.write id (some r)) = stored amount records + amount r := by
  have h := stored_write amount records id (some r)
  simpa [amountAt, hid] using h

theorem stored_reduce {r r' : ρ} (hr : records.get id = some r) {n : ℕ}
    (hn : n ≤ amount r) (hamount : amount r' + n = amount r) :
    stored amount (records.write id (if amount r ≤ n then none else some r')) + n =
      stored amount records := by
  have h := stored_write amount records id
    (if amount r ≤ n then none else some r')
  rw [amountAt_of_get hr] at h
  split at h
  · rename_i hw
    rw [if_pos hw]
    simp only [Option.elim_none] at h
    omega
  · rename_i hw
    rw [if_neg hw]
    simp only [Option.elim_some] at h
    omega

omit [DecidableEq ι] in
theorem indexed_insert (k : κ) (id : ι) (n : ℕ) :
    indexed (groups.write k (some (Group.insert (groups.get k) id n))) = indexed groups + n := by
  have h := indexed_write groups k (some (Group.insert (groups.get k) id n))
  simp only [Option.elim_some] at h
  cases hg : groups.get k with
  | none =>
    rw [hg] at h
    simpa [Group.insert] using h
  | some g =>
    rw [hg] at h
    simp only [Group.insert, Option.elim_some] at h
    simp only [Group.insert]
    omega

theorem indexed_reduce {k : κ} {g : Group ι} (hg : groups.get k = some g) (id : ι) {n : ℕ}
    (hn : n ≤ g.total) (whole : Bool) :
    indexed (groups.write k (g.reduce id n whole)) + n = indexed groups := by
  have h := indexed_write groups k (g.reduce id n whole)
  rw [hg, Option.elim_some] at h
  unfold Group.reduce at h ⊢
  split at h
  · rename_i hle
    rw [if_pos hle]
    simp only [Option.elim_none] at h
    omega
  · rename_i hle
    rw [if_neg hle]
    simp only [Option.elim_some] at h
    omega

end GroupIndex

end Bifrost
