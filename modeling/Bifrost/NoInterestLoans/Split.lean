import Bifrost.Lib.Proportion
import Bifrost.NoInterestLoans.Rewards

/-!
# How a cycle is split

A loan's part of a cycle is `cycle_rewards * collateral / total_asset_value`. The numerator
counts the collateral; the denominator counts the collateral and the rewards that earlier cycles
left open. The parts add up to the cycle, up to one unit a loan, only while these open rewards
are too few to change any part.
-/

namespace Bifrost.NoInterestLoans

open Result Machine Proportion
set_option autoImplicit false

variable {AccountId : Type} {cfg : Config AccountId}

def State.activeCollateral (s : State cfg) : ℕ :=
  ((activeLoans cfg s).map fun e => e.2.collateralAmount).sum

def State.activeRewards (s : State cfg) : ℕ :=
  ((activeLoans cfg s).map fun e => s.rewardsOf e.1).sum

def addedTo (s s' : State cfg) (id : ℕ) : ℕ := s'.rewardsOf id - s.rewardsOf id

/-- Nothing on the way of a distribution saturates, wraps or divides by zero. -/
structure Unsaturated (s : State cfg) (r : ℕ) : Prop where
  total : 0 < s.activeValue ∧ s.activeValue ≤ u128Max
  product : ∀ e ∈ activeLoans cfg s, r * e.2.collateralAmount ≤ u128Max
  rewards : ∀ e ∈ activeLoans cfg s,
    s.rewardsOf e.1 + r * e.2.collateralAmount / s.activeValue ≤ u128Max

/-- The storage of `LoanRewards` after a distribution that visits the loans in the given
order. -/
def State.creditedIn (s : State cfg) (r : ℕ) (order : List (ℕ × LoanPosition AccountId)) :
    Table ℕ ℕ :=
  order.foldl (creditLoan r ((order.map (assetValue cfg s)).sum % 2 ^ 128)) s.loanRewards

/-- The distribution of `r` from `s` to `s'` is a fair split. -/
structure FairSplit (s s' : State cfg) (r : ℕ) : Prop where
  sum_le : ((activeLoans cfg s).map fun e => addedTo s s' e.1).sum ≤ r
  lt_sum : r < ((activeLoans cfg s).map fun e => addedTo s s' e.1).sum +
    (activeLoans cfg s).length
  share : ∀ e ∈ activeLoans cfg s,
    addedTo s s' e.1 * s.activeCollateral < r * e.2.collateralAmount + s.activeCollateral ∧
      r * e.2.collateralAmount < addedTo s s' e.1 * s.activeCollateral + s.activeCollateral
  unsaturated : Unsaturated s r
  /-- Any order of the active loans gives the same rewards. -/
  order : ∀ order, order.Perm (activeLoans cfg s) →
    ∀ id, (s.creditedIn r order).get id = s'.loanRewards.get id
  /-- Without the earlier distributions the same would have been added. -/
  history : ∃ s₀, distributeCycleRewards cfg { s with loanRewards := ∅ } r = .ok s₀ ∧
    ∀ e ∈ activeLoans cfg s, s₀.rewardsOf e.1 = addedTo s s' e.1

/-- There is an active loan, nothing is too large, and the open rewards change no part. -/
structure SplitsFairly (s : State cfg) (r : ℕ) : Prop where
  nonempty : activeLoans cfg s ≠ []
  total : s.activeCollateral + s.activeRewards ≤ u128Max
  product : ∀ e ∈ activeLoans cfg s, r * e.2.collateralAmount ≤ u128Max
  rewards : ∀ e ∈ activeLoans cfg s,
    s.rewardsOf e.1 + r * e.2.collateralAmount / s.activeCollateral ≤ u128Max
  diluted : ∀ e ∈ activeLoans cfg s,
    s.activeRewards * (r * e.2.collateralAmount / s.activeCollateral) ≤
      r * e.2.collateralAmount % s.activeCollateral

theorem activeValue_eq (s : State cfg) :
    s.activeValue = s.activeCollateral + s.activeRewards := List.sum_map_add

/-- A divisor that is larger by `g` leaves the quotient as it is while the remainder has room
for `g` times the quotient. -/
theorem div_add_eq_div_iff {n c : ℕ} (hc : 0 < c) (g : ℕ) :
    n / (c + g) = n / c ↔ g * (n / c) ≤ n % c := by
  have hdiv := Nat.div_add_mod n c
  have hle : n / (c + g) ≤ n / c := Nat.div_le_div_left (Nat.le_add_right c g) hc
  have hsplit : n / c * (c + g) = c * (n / c) + g * (n / c) := by ring
  constructor
  · intro heq
    have hmul := Nat.div_mul_le_self n (c + g)
    rw [heq] at hmul
    omega
  · intro hroom
    apply Nat.le_antisymm hle
    rw [Nat.le_div_iff_mul_le (by omega)]
    omega

section Distribution

variable {s s' : State cfg} {r : ℕ}

theorem distributed_ok (h : distributeCycleRewards cfg s r = .ok s')
    (hactive : activeLoans cfg s ≠ []) : totalAssetValue s ≠ 0 ∧ s' = s.distributed r := by
  unfold distributeCycleRewards at h
  rw [if_neg hactive] at h
  simp only [bind_eq_ok, ensure_eq_ok, pure_eq_ok] at h
  obtain ⟨-, hne, rfl⟩ := h
  exact ⟨hne, rfl⟩

theorem creditedIn_perm {order : List (ℕ × LoanPosition AccountId)}
    (horder : order.Perm (activeLoans cfg s)) (id : ℕ) :
    (s.creditedIn r order).get id = (s.distributed r).loanRewards.get id := by
  have hnodup := @activeLoans_nodup _ cfg s
  have htotal : (order.map (assetValue cfg s)).sum =
      ((activeLoans cfg s).map (assetValue cfg s)).sum := (horder.map _).sum_eq
  have hids := horder.map Prod.fst
  unfold State.creditedIn State.distributed totalAssetValue
  rw [htotal]
  by_cases hid : id ∈ (activeLoans cfg s).map Prod.fst
  · obtain ⟨e, he, rfl⟩ := List.mem_map.mp hid
    rw [credited_get _ _ _ (hids.nodup_iff.mpr hnodup) (horder.mem_iff.mpr he),
      credited_get _ _ _ hnodup he]
  · rw [credited_other _ _ _ fun hmem => hid (hids.mem_iff.mp hmem), credited_other _ _ _ hid]

/-- Where nothing saturates a loan is added its collateral's part of the active value. -/
theorem addedTo_eq (h : Unsaturated s r) {e : ℕ × LoanPosition AccountId}
    (he : e ∈ activeLoans cfg s) :
    addedTo s (s.distributed r) e.1 = part e.2.collateralAmount s.activeValue r := by
  have htotal : totalAssetValue s = s.activeValue := by
    apply totalAssetValue_eq
    have hmax := h.total.2
    unfold u128Max at hmax
    omega
  have hshare : loaneeShare r (totalAssetValue s) e.2.collateralAmount =
      r * e.2.collateralAmount / s.activeValue := by
    rw [htotal]
    unfold loaneeShare U128.saturatingMul
    rw [Nat.min_eq_left (h.product e he)]
  have hget : (s.distributed r).rewardsOf e.1 =
      s.rewardsOf e.1 + r * e.2.collateralAmount / s.activeValue := by
    have hcredit := credited_get r (totalAssetValue s) s.loanRewards (activeLoans_nodup s) he
    rw [hshare] at hcredit
    unfold State.rewardsOf State.distributed
    rw [hcredit]
    exact Nat.min_eq_left (h.rewards e he)
  unfold addedTo part
  rw [hget, Nat.add_sub_cancel_left, Nat.mul_comm r]

theorem activeCollateral_pos (hpos : ∀ e ∈ activeLoans cfg s, 0 < e.2.collateralAmount)
    (hactive : activeLoans cfg s ≠ []) : 0 < s.activeCollateral := by
  obtain ⟨e, he⟩ := List.exists_mem_of_ne_nil _ hactive
  have hle : e.2.collateralAmount ≤ s.activeCollateral :=
    List.single_le_sum (fun _ _ => Nat.zero_le _) _ (List.mem_map_of_mem he)
  exact (hpos e he).trans_le hle

theorem distributes (h : Unsaturated s r) (hactive : activeLoans cfg s ≠ []) :
    distributeCycleRewards cfg s r = .ok (s.distributed r) := by
  have htotal : ((activeLoans cfg s).map (assetValue cfg s)).sum % 2 ^ 128 ≠ 0 := by
    have hvalue : totalAssetValue s = s.activeValue := by
      apply totalAssetValue_eq
      have hmax := h.total.2
      unfold u128Max at hmax
      omega
    have hpos := h.total.1
    unfold totalAssetValue at hvalue
    omega
  unfold distributeCycleRewards
  rw [if_neg hactive]
  simp only [bind_eq_ok, ensure_eq_ok, pure_eq_ok]
  exact ⟨⟨⟩, htotal, rfl⟩

theorem unsaturated_erased (h : Unsaturated s r) (hC : 0 < s.activeCollateral) :
    Unsaturated ({ s with loanRewards := ∅ } : State cfg) r := by
  have hvalue := activeValue_eq s
  have herased : ({ s with loanRewards := ∅ } : State cfg).activeValue = s.activeCollateral :=
    congrArg List.sum (List.map_congr_left fun e _ => Nat.add_zero e.2.collateralAmount)
  have hzero : ∀ id, ({ s with loanRewards := ∅ } : State cfg).rewardsOf id = 0 := fun _ => rfl
  have hmax := h.total.2
  refine ⟨⟨by omega, by omega⟩, h.product, fun e he => ?_⟩
  have hproduct := h.product e he
  have hle := Nat.div_le_self (r * e.2.collateralAmount)
    ({ s with loanRewards := ∅ } : State cfg).activeValue
  rw [hzero]
  omega

theorem splitsFairly_of_fairSplit
    (h : distributeCycleRewards cfg s r = .ok s') (hfair : FairSplit s s' r)
    (hpos : ∀ e ∈ activeLoans cfg s, 0 < e.2.collateralAmount) : SplitsFairly s r := by
  have hactive : activeLoans cfg s ≠ [] := by
    intro hnil
    have hlt := hfair.lt_sum
    simp only [hnil, List.map_nil, List.sum_nil, List.length_nil] at hlt
    omega
  obtain ⟨-, rfl⟩ := distributed_ok h hactive
  have hC := activeCollateral_pos hpos hactive
  have hvalue := activeValue_eq s
  have hquot : ∀ e ∈ activeLoans cfg s, r * e.2.collateralAmount / (s.activeCollateral +
      s.activeRewards) = r * e.2.collateralAmount / s.activeCollateral := by
    intro e he
    have hadded := addedTo_eq hfair.unsaturated he
    have hshare := (hfair.share e he).2
    rw [hadded, hvalue, part, Nat.mul_comm e.2.collateralAmount] at hshare
    apply Nat.le_antisymm
    · exact Nat.div_le_div_left (Nat.le_add_right _ _) hC
    · rw [← Nat.lt_succ_iff, Nat.div_lt_iff_lt_mul hC, Nat.succ_mul]
      exact hshare
  refine ⟨hactive, hvalue ▸ hfair.unsaturated.total.2, hfair.unsaturated.product, ?_, ?_⟩
  · intro e he
    rw [← hquot e he, ← hvalue]
    exact hfair.unsaturated.rewards e he
  · intro e he
    exact (div_add_eq_div_iff hC _).mp (hquot e he)

theorem fairSplit_of_splitsFairly (h : SplitsFairly s r)
    (hpos : ∀ e ∈ activeLoans cfg s, 0 < e.2.collateralAmount) :
    ∃ s', distributeCycleRewards cfg s r = .ok s' ∧ FairSplit s s' r := by
  have hC := activeCollateral_pos hpos h.nonempty
  have hvalue := activeValue_eq s
  have hquot : ∀ e ∈ activeLoans cfg s, r * e.2.collateralAmount / (s.activeCollateral +
      s.activeRewards) = r * e.2.collateralAmount / s.activeCollateral :=
    fun e he => (div_add_eq_div_iff hC _).mpr (h.diluted e he)
  have hunsat : Unsaturated s r := by
    refine ⟨⟨by omega, hvalue ▸ h.total⟩, h.product, fun e he => ?_⟩
    rw [hvalue, hquot e he]
    exact h.rewards e he
  have hadded : ∀ e ∈ activeLoans cfg s, addedTo s (s.distributed r) e.1 =
      part e.2.collateralAmount s.activeCollateral r := by
    intro e he
    rw [addedTo_eq hunsat he, part, part, Nat.mul_comm, hvalue, hquot e he]
  have hsum : ((activeLoans cfg s).map fun e => addedTo s (s.distributed r) e.1) =
      ((activeLoans cfg s).map fun e => e.2.collateralAmount).map fun c =>
        part c s.activeCollateral r := by
    rw [List.map_map]
    exact List.map_congr_left hadded
  refine ⟨s.distributed r, distributes hunsat h.nonempty, ?_, ?_, ?_, hunsat,
    fun order horder => creditedIn_perm horder, ?_⟩
  · rw [hsum]
    exact sum_map_part_le hC rfl r
  · have hlt := lt_sum_map_part hC (rfl : ((activeLoans cfg s).map fun e =>
      e.2.collateralAmount).sum = s.activeCollateral) r
    rwa [List.length_map, ← hsum] at hlt
  · intro e he
    have hle := part_mul_le e.2.collateralAmount s.activeCollateral r
    have hlt := lt_part_succ_mul hC e.2.collateralAmount r
    rw [Nat.add_mul, Nat.one_mul] at hlt
    rw [hadded e he, Nat.mul_comm r]
    omega
  · have herased := unsaturated_erased hunsat hC
    refine ⟨_, distributes herased h.nonempty, fun e he => ?_⟩
    have hpart := addedTo_eq herased (e := e) he
    have hrewards : ({ s with loanRewards := ∅ } : State cfg).activeValue = s.activeCollateral :=
      congrArg List.sum (List.map_congr_left fun e _ => Nat.add_zero e.2.collateralAmount)
    rw [hadded e he, ← hrewards, ← hpart]
    rfl

/-- A distribution over active loans with positive collateral succeeds and is a fair split if and
only if there is an active loan, nothing is too large for a `u128`, and the open rewards change no
loan's part: their sum times the part is within the remainder of the part. -/
theorem distribution_fair_iff (s : State cfg) (r : ℕ)
    (hpos : ∀ e ∈ activeLoans cfg s, 0 < e.2.collateralAmount) :
    (∃ s', distributeCycleRewards cfg s r = .ok s' ∧ FairSplit s s' r) ↔ SplitsFairly s r := by
  constructor
  · rintro ⟨s', h, hfair⟩
    exact splitsFairly_of_fairSplit h hfair hpos
  · intro h
    exact fairSplit_of_splitsFairly h hpos

end Distribution

namespace Sample

def borrowed : List (Call ℕ) :=
  [.createLoan 1 vDOT 100 kUSD 10, .createLoan 2 vDOT 200 kUSD 20]

end Sample

theorem distribution_fair_sample :
    let s := run (step Sample.config) Sample.start Sample.borrowed
    ∃ s', distributeCycleRewards Sample.config s 100 = .ok s' ∧ FairSplit s s' 100 := by
  intro s
  have hpos : ∀ e ∈ activeLoans Sample.config s, 0 < e.2.collateralAmount := by decide
  exact (distribution_fair_iff s 100 hpos).mpr
    ⟨by decide, by decide, by decide, by decide, by decide⟩

/-- The second distribution of 300 over a collateral of 300 with 300 open rewards adds 50 and
100: half of it is lost. -/
theorem distribution_diluted :
    let s := run (step Sample.config) Sample.start
      (Sample.borrowed ++ [.distributeCycleRewards 300])
    let s' := exec (step Sample.config) s (.distributeCycleRewards 300)
    distributeCycleRewards Sample.config s 300 = .ok s' ∧ addedTo s s' 0 = 50 ∧
      addedTo s s' 1 = 100 ∧ ¬ FairSplit s s' 300 := by
  intro s s'
  refine ⟨rfl, by decide, by decide, fun h => ?_⟩
  exact absurd h.lt_sum (by decide)

end Bifrost.NoInterestLoans
