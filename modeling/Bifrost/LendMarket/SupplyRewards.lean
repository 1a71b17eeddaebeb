import Bifrost.Lib.RewardIndex
import Bifrost.LendMarket.Conservation

/-!
# Supply rewards are paid for by the speed

What suppliers were credited, what the index owes them and what the blocks since its last update
will add, are together no more than the reward speed over all blocks. Every operation settles the
accounts whose vouchers it moves, except the transfer of lend tokens, which settles them at the
id of the token.
-/

namespace Bifrost.LendMarket

open Result Machine RewardIndex
set_option autoImplicit false

variable {AccountId : Type} {cfg : Config AccountId} {s s' s₁ : State cfg} {asset : CurrencyId}

/-- The supply reward that an event reports for a market. -/
def RewardEvent.supplied (asset : CurrencyId) : RewardEvent AccountId → ℕ
  | .distributedSupplierReward c _ rewardDelta _ => if c = asset then rewardDelta else 0
  | .distributedBorrowerReward .. => 0

def State.supplyRewards (s : State cfg) (asset : CurrencyId) : ℕ :=
  (s.rewards.events.map (RewardEvent.supplied asset)).sum

/-- `RewardSupplySpeed` over the blocks of a run. -/
def supplyBudget [DecidableEq AccountId] :
    State cfg → List (Call AccountId) → CurrencyId → ℕ
  | _, [], _ => 0
  | s, a :: as, asset =>
    a.blocks * s.rewards.supplySpeed asset + supplyBudget (exec step s a) as asset

def State.pendingSupply (s : State cfg) (asset : CurrencyId) : ℕ :=
  (s.blockNumber - (s.rewards.supplyState asset).block) * s.rewards.supplySpeed asset

/-- The numerators of the rewards that the index owes the holders of vouchers. -/
def State.supplyOwed (s : State cfg) (asset : CurrencyId) : ℕ :=
  due Deposits.voucherBalance (s.rewards.supplyState asset).index (s.rewards.supplierIndex asset)
    (s.accountDeposits asset)

/-- Everything that was and will be credited for the blocks so far, at most. -/
def State.supplyDue (s : State cfg) (asset : CurrencyId) : ℕ :=
  rewardScale * s.supplyRewards asset + s.supplyOwed asset + rewardScale * s.pendingSupply asset

/-- The supply index is that of the current block. -/
def SupplyUpdated (s : State cfg) (asset : CurrencyId) : Prop :=
  s.blockNumber ≤ (s.rewards.supplyState asset).block

def SupplierSettled (s : State cfg) (asset : CurrencyId) (who : AccountId) : Prop :=
  SupplyUpdated s asset ∧
    s.rewards.supplierIndex asset who = (s.rewards.supplyState asset).index

variable [DecidableEq AccountId] {who : AccountId} {n : ℕ}

/-- Vouchers and totals change only where the index is up to date and the account is settled,
and no more becomes due. -/
structure Supplies (s s' : State cfg) : Prop where
  updated : ∀ c, SupplyUpdated s c → SupplyUpdated s' c
  settled : ∀ c who, SupplierSettled s c who → SupplierSettled s' c who
  supply : ∀ c, s'.totalSupply c ≠ s.totalSupply c → SupplyUpdated s' c
  vouchers : ∀ c who, s'.vouchersOf c who ≠ s.vouchersOf c who → SupplierSettled s' c who
  due : ∀ c, s'.supplyDue c ≤ s.supplyDue c

namespace Supplies

theorem refl (s : State cfg) : Supplies s s :=
  ⟨fun _ h => h, fun _ _ h => h, fun _ h => absurd rfl h, fun _ _ h => absurd rfl h,
    fun _ => Nat.le_refl _⟩

theorem trans (h : Supplies s s₁) (h' : Supplies s₁ s') : Supplies s s' := by
  refine ⟨fun c hc => h'.updated c (h.updated c hc),
    fun c who hc => h'.settled c who (h.settled c who hc), ?_, ?_,
    fun c => (h'.due c).trans (h.due c)⟩
  · intro c hne
    by_cases heq : s'.totalSupply c = s₁.totalSupply c
    · exact h'.updated c (h.supply c (heq ▸ hne))
    · exact h'.supply c heq
  · intro c who hne
    by_cases heq : s'.vouchersOf c who = s₁.vouchersOf c who
    · exact h'.settled c who (h.vouchers c who (heq ▸ hne))
    · exact h'.vouchers c who heq

end Supplies

/-- What the supply rewards depend on. -/
structure SameSupplySide (s s' : State cfg) : Prop where
  blockNumber : s'.blockNumber = s.blockNumber
  totalSupply : s'.totalSupply = s.totalSupply
  accountDeposits : s'.accountDeposits = s.accountDeposits
  supplySpeed : s'.rewards.supplySpeed = s.rewards.supplySpeed
  supplyState : s'.rewards.supplyState = s.rewards.supplyState
  supplierIndex : s'.rewards.supplierIndex = s.rewards.supplierIndex
  rewards : ∀ c, s'.supplyRewards c = s.supplyRewards c

theorem SameSupplySide.supplies (h : SameSupplySide s s') : Supplies s s' := by
  have hupdated : ∀ c, SupplyUpdated s c → SupplyUpdated s' c := by
    intro c hc
    unfold SupplyUpdated
    rw [h.blockNumber, h.supplyState]
    exact hc
  refine ⟨hupdated, ?_, ?_, ?_, ?_⟩
  · intro c who hc
    refine ⟨hupdated c hc.1, ?_⟩
    rw [h.supplierIndex, h.supplyState]
    exact hc.2
  · intro c hne
    exact absurd (congrFun h.totalSupply c) hne
  · intro c who hne
    have heq : s'.vouchersOf c who = s.vouchersOf c who := by
      unfold State.vouchersOf State.depositsOf
      rw [h.accountDeposits]
    exact absurd heq hne
  · intro c
    unfold State.supplyDue State.supplyOwed State.pendingSupply
    rw [h.rewards, h.supplyState, h.supplierIndex, h.accountDeposits, h.blockNumber,
      h.supplySpeed]

/-! Settling. -/

omit [DecidableEq AccountId] in
theorem supplyDue_congr {c : CurrencyId} (hblock : s'.blockNumber = s.blockNumber)
    (hdeposits : s'.accountDeposits c = s.accountDeposits c)
    (hspeed : s'.rewards.supplySpeed c = s.rewards.supplySpeed c)
    (hstate : s'.rewards.supplyState c = s.rewards.supplyState c)
    (hindex : s'.rewards.supplierIndex c = s.rewards.supplierIndex c)
    (hrewards : s'.supplyRewards c = s.supplyRewards c) : s'.supplyDue c = s.supplyDue c := by
  unfold State.supplyDue State.supplyOwed State.pendingSupply
  rw [hblock, hdeposits, hspeed, hstate, hindex, hrewards]

theorem updateRewardSupplyIndex_supplies (h : s.updateRewardSupplyIndex asset = .ok s')
    (hconserved : VouchersConserved s) : Supplies s s' ∧ SupplyUpdated s' asset := by
  simp only [State.updateRewardSupplyIndex, bind_eq_ok, pure_eq_ok] at h
  obtain ⟨state, hstate, hs'⟩ := h
  obtain ⟨delta, hadvanced, hsame, hdelta⟩ := advance_ok hstate
  have hself : s'.rewards.supplyState asset = state := hs' ▸ Function.update_self _ _ _
  have hother : ∀ c, c ≠ asset → s'.rewards.supplyState c = s.rewards.supplyState c :=
    fun c hc => hs' ▸ Function.update_of_ne hc _ _
  have hupdated : SupplyUpdated s' asset := by
    unfold SupplyUpdated
    rw [hself, hadvanced, ← hs']
    exact Nat.le_max_right _ _
  have hkept : ∀ c, SupplyUpdated s c → SupplyUpdated s' c := by
    intro c hc
    by_cases hca : c = asset
    · exact hca ▸ hupdated
    · unfold SupplyUpdated
      rw [hother c hca, ← hs']
      exact hc
  refine ⟨⟨hkept, ?_, ?_, ?_, ?_⟩, hupdated⟩
  · intro c who hc
    refine ⟨hkept c hc.1, ?_⟩
    have hpaid : s'.rewards.supplierIndex c who = s.rewards.supplierIndex c who := hs' ▸ rfl
    rw [hpaid, hc.2]
    by_cases hca : c = asset
    · subst c
      rw [hself, hadvanced, hsame hc.1]
      rfl
    · rw [hother c hca]
  · intro c hne
    exact absurd (hs' ▸ rfl) hne
  · intro c who hne
    exact absurd (hs' ▸ rfl) hne
  · intro c
    by_cases hca : c = asset
    · subst c
      have hpending : s'.pendingSupply asset = 0 := by
        unfold State.pendingSupply
        rw [Nat.sub_eq_zero_of_le hupdated, Nat.zero_mul]
      have howed : s'.supplyOwed asset ≤ s.supplyOwed asset + rewardScale * s.pendingSupply asset := by
        have hshare := hdelta _ rfl
        rw [hconserved asset] at hshare
        have hgrown : s'.supplyOwed asset ≤
            s.supplyOwed asset + delta * s.circulating asset := by
          unfold State.supplyOwed
          rw [hself, hadvanced, ← hs']
          exact due_advance_le _
        unfold State.pendingSupply
        rw [Nat.mul_comm rewardScale]
        omega
      have hrewards : s'.supplyRewards asset = s.supplyRewards asset := hs' ▸ rfl
      unfold State.supplyDue
      rw [hpending, hrewards]
      omega
    · apply Nat.le_of_eq
      apply supplyDue_congr _ _ _ (hother c hca)
      · exact hs' ▸ rfl
      · exact hs' ▸ rfl
      · exact hs' ▸ rfl
      · exact hs' ▸ rfl
      · exact hs' ▸ rfl

omit [DecidableEq AccountId] in
theorem supplyRewards_distributed {n index : ℕ} {c : CurrencyId}
    (h : s'.rewards.events = .distributedSupplierReward asset who n index :: s.rewards.events) :
    s'.supplyRewards c = (if asset = c then n else 0) + s.supplyRewards c := by
  unfold State.supplyRewards
  rw [h, List.map_cons, List.sum_cons]
  rfl

theorem weightOf_deposits (o : Option Deposits) :
    weightOf Deposits.voucherBalance o = (o.getD default).voucherBalance := by
  cases o with
  | none => rfl
  | some d => rfl

theorem supplyOwed_settle
    (hindex : s'.rewards.supplierIndex asset = Function.update (s.rewards.supplierIndex asset) who
      (s.rewards.supplyState asset).index)
    (hstate : s'.rewards.supplyState asset = s.rewards.supplyState asset)
    (hdeposits : s'.accountDeposits asset = s.accountDeposits asset) :
    s'.supplyOwed asset + s.vouchersOf asset who *
      ((s.rewards.supplyState asset).index - s.rewards.supplierIndex asset who) =
        s.supplyOwed asset := by
  have hweight : weightOf Deposits.voucherBalance ((s.accountDeposits asset).get who) =
      s.vouchersOf asset who := weightOf_deposits _
  unfold State.supplyOwed
  rw [hindex, hstate, hdeposits, ← hweight]
  exact due_settle _ who

theorem distributeSupplierReward_supplies (h : s.distributeSupplierReward asset who = .ok s') :
    Supplies s s' ∧ (SupplyUpdated s asset → SupplierSettled s' asset who) := by
  simp only [State.distributeSupplierReward, calculateRewardDelta, toU128, bind_eq_ok, okOr_eq_ok,
    ensure_eq_ok, pure_eq_ok, U128.checkedSub_eq_some] at h
  obtain ⟨gap, ⟨-, rfl⟩, n, ⟨_, -, hn⟩, _, -, hs'⟩ := h
  have hself : s'.rewards.supplierIndex asset = Function.update (s.rewards.supplierIndex asset) who
      (s.rewards.supplyState asset).index := hs' ▸ Function.update_self _ _ _
  have hother : ∀ c, c ≠ asset → s'.rewards.supplierIndex c = s.rewards.supplierIndex c :=
    fun c hc => hs' ▸ Function.update_of_ne hc _ _
  have hstate : s'.rewards.supplyState = s.rewards.supplyState := hs' ▸ rfl
  have hblock : s'.blockNumber = s.blockNumber := hs' ▸ rfl
  have hdeposits : s'.accountDeposits = s.accountDeposits := hs' ▸ rfl
  have hspeed : s'.rewards.supplySpeed = s.rewards.supplySpeed := hs' ▸ rfl
  have hevents : s'.rewards.events = .distributedSupplierReward asset who n
      (s.rewards.supplyState asset).index :: s.rewards.events := hs' ▸ rfl
  have hrewards : ∀ c, s'.supplyRewards c = (if asset = c then n else 0) + s.supplyRewards c :=
    fun c => supplyRewards_distributed hevents
  have hupdated : ∀ c, SupplyUpdated s c → SupplyUpdated s' c := by
    intro c hc
    unfold SupplyUpdated
    rw [hblock, hstate]
    exact hc
  refine ⟨⟨hupdated, ?_, ?_, ?_, ?_⟩, ?_⟩
  · intro c supplier hc
    refine ⟨hupdated c hc.1, ?_⟩
    rw [hstate, ← hc.2]
    by_cases hca : c = asset
    · subst c
      rw [hself]
      by_cases hwho : supplier = who
      · subst supplier
        rw [Function.update_self, hc.2]
      · rw [Function.update_of_ne hwho]
    · rw [hother c hca]
  · intro c hne
    exact absurd (hs' ▸ rfl) hne
  · intro c supplier hne
    exact absurd (hs' ▸ rfl) hne
  · intro c
    by_cases hca : c = asset
    · subst c
      have howed := supplyOwed_settle hself (congrFun hstate asset) (congrFun hdeposits asset)
      have hcredit : rewardScale * n ≤ s.vouchersOf asset who *
          ((s.rewards.supplyState asset).index - s.rewards.supplierIndex asset who) := by
        rw [← hn]
        exact Nat.mul_div_le _ _
      have hpending : s'.pendingSupply asset = s.pendingSupply asset := by
        unfold State.pendingSupply
        rw [hblock, hstate, hspeed]
      unfold State.supplyDue
      rw [hpending, hrewards, if_pos rfl, Nat.mul_add]
      omega
    · apply Nat.le_of_eq
      apply supplyDue_congr hblock (congrFun hdeposits c) (congrFun hspeed c) (congrFun hstate c)
        (hother c hca)
      rw [hrewards, if_neg (Ne.symm hca), Nat.zero_add]
  · intro hc
    refine ⟨hupdated asset hc, ?_⟩
    rw [hself, hstate, Function.update_self]

theorem distributeSupplierRewards_supplies {suppliers : List AccountId}
    (h : suppliers.foldlM (fun (s : State cfg) supplier =>
      s.distributeSupplierReward asset supplier) s = .ok s') :
    Supplies s s' ∧
      (SupplyUpdated s asset → ∀ who ∈ suppliers, SupplierSettled s' asset who) := by
  induction suppliers generalizing s with
  | nil =>
    simp only [List.foldlM_nil, pure_eq_ok] at h
    subst h
    exact ⟨.refl s, fun _ => List.forall_mem_nil _⟩
  | cons who suppliers ih =>
    simp only [List.foldlM_cons, bind_eq_ok] at h
    obtain ⟨s₁, h₁, h₂⟩ := h
    obtain ⟨hfirst, hsettled⟩ := distributeSupplierReward_supplies h₁
    obtain ⟨hrest, hall⟩ := ih h₂
    refine ⟨hfirst.trans hrest, ?_⟩
    intro hupdated
    exact List.forall_mem_cons.mpr ⟨hrest.settled asset who (hsettled hupdated),
      hall (hfirst.updated asset hupdated)⟩

theorem settleSuppliers_supplies {suppliers : List AccountId}
    (h : s.settleSuppliers asset suppliers = .ok s') (hconserved : VouchersConserved s) :
    Supplies s s' ∧ SupplyUpdated s' asset ∧ ∀ who ∈ suppliers, SupplierSettled s' asset who := by
  simp only [State.settleSuppliers, bind_eq_ok] at h
  obtain ⟨s₁, h₁, h₂⟩ := h
  obtain ⟨hfirst, hupdated⟩ := updateRewardSupplyIndex_supplies h₁ hconserved
  obtain ⟨hrest, hsettled⟩ := distributeSupplierRewards_supplies h₂
  exact ⟨hfirst.trans hrest, hrest.updated asset hupdated, hsettled hupdated⟩

/-! Writing deposits and totals. -/

theorem supplyOwed_setDeposits (s : State cfg) (asset : CurrencyId) (who : AccountId)
    (o : Option Deposits) :
    (s.setDeposits asset who o).supplyOwed asset + s.vouchersOf asset who *
      ((s.rewards.supplyState asset).index - s.rewards.supplierIndex asset who) =
    s.supplyOwed asset + (o.getD default).voucherBalance *
      ((s.rewards.supplyState asset).index - s.rewards.supplierIndex asset who) := by
  have hwritten : (s.setDeposits asset who o).accountDeposits asset =
      (s.accountDeposits asset).write who o := Function.update_self _ _ _
  have hvouchers : s.vouchersOf asset who =
      weightOf Deposits.voucherBalance ((s.accountDeposits asset).get who) :=
    (weightOf_deposits _).symm
  unfold State.supplyOwed
  rw [hwritten, hvouchers, ← weightOf_deposits o]
  exact due_write _ who o

theorem setDeposits_supplies {o : Option Deposits}
    (h : SupplierSettled s asset who ∨ (o.getD default).voucherBalance = s.vouchersOf asset who) :
    Supplies s (s.setDeposits asset who o) := by
  refine ⟨fun _ hc => hc, fun _ _ hc => hc, fun _ hne => absurd rfl hne, ?_, ?_⟩
  · intro c x hne
    unfold State.vouchersOf at hne
    by_cases hother : c ≠ asset ∨ x ≠ who
    · rw [depositsOf_setDeposits_ne o hother] at hne
      exact absurd rfl hne
    · obtain ⟨rfl, rfl⟩ : c = asset ∧ x = who := by
        simpa [not_or] using hother
      rw [depositsOf_setDeposits_self] at hne
      exact h.resolve_right hne
  · intro c
    by_cases hca : c = asset
    · subst c
      have howed := supplyOwed_setDeposits s asset who o
      have hsame : (s.setDeposits asset who o).supplyOwed asset = s.supplyOwed asset := by
        rcases h with hsettled | hvouchers
        · rw [hsettled.2, Nat.sub_self, Nat.mul_zero, Nat.mul_zero] at howed
          exact howed
        · rw [hvouchers] at howed
          exact Nat.add_right_cancel howed
      apply Nat.le_of_eq
      unfold State.supplyDue
      rw [hsame]
      rfl
    · have hother : (s.setDeposits asset who o).accountDeposits c = s.accountDeposits c :=
        Function.update_of_ne hca _ _
      apply Nat.le_of_eq
      unfold State.supplyDue State.supplyOwed
      rw [hother]
      rfl

theorem addVouchers_supplies (h : s.addVouchers asset who n = .ok s')
    (hsettled : SupplierSettled s asset who) : Supplies s s' := by
  obtain rfl := addVouchers_ok h
  exact setDeposits_supplies (Or.inl hsettled)

theorem removeVouchers_supplies
    (h : s.removeVouchers asset who n = .ok s') (hsettled : SupplierSettled s asset who) :
    Supplies s s' := by
  obtain ⟨-, o, rfl, -⟩ := removeVouchers_ok h
  exact setDeposits_supplies (Or.inl hsettled)

theorem seizeVouchers_supplies
    (h : s.seizeVouchers asset who n = .ok s') (hsettled : SupplierSettled s asset who) :
    Supplies s s' := by
  obtain ⟨-, rfl⟩ := seizeVouchers_ok h
  exact setDeposits_supplies (Or.inl hsettled)

theorem setSupply_supplies {supply : ℕ} (hupdated : SupplyUpdated s asset) :
    Supplies s (s.setSupply asset supply) := by
  refine ⟨fun _ hc => hc, fun _ _ hc => hc, ?_, fun _ _ hne => absurd rfl hne,
    fun _ => Nat.le_refl _⟩
  intro c hne
  by_cases hca : c = asset
  · exact hca ▸ hupdated
  · have hother : (s.setSupply asset supply).totalSupply c = s.totalSupply c :=
      Function.update_of_ne hca _ _
    exact absurd hother hne

theorem accrueInterest_supplies (h : s.accrueInterest asset = .ok s') : Supplies s s' := by
  have hframe := accrueInterest_frame h
  apply SameSupplySide.supplies
  refine ⟨hframe.blockNumber, hframe.totalSupply, hframe.accountDeposits, ?_, ?_, ?_, ?_⟩
  · rw [hframe.rewards]
  · rw [hframe.rewards]
  · rw [hframe.rewards]
  · intro c
    unfold State.supplyRewards
    rw [hframe.rewards]

theorem transfer_supplies {source dest : AccountId} {p : Preservation}
    (h : s.transfer asset source dest n p = .ok s') : Supplies s s' := by
  obtain ⟨L, -, rfl⟩ := transfer_ok h
  exact SameSupplySide.supplies ⟨rfl, rfl, rfl, rfl, rfl, rfl, fun _ => rfl⟩

theorem settleBorrower_supplies (h : s.settleBorrower asset who = .ok s') : Supplies s s' := by
  simp only [State.settleBorrower, State.updateRewardBorrowIndex, State.distributeBorrowerReward,
    bind_eq_ok, pure_eq_ok] at h
  obtain ⟨_, ⟨state, -, rfl⟩, _, -, _, -, _, -, n, -, _, -, rfl⟩ := h
  refine SameSupplySide.supplies ⟨rfl, rfl, rfl, rfl, rfl, rfl, fun c => ?_⟩
  exact Nat.zero_add _

/-! The operations. -/

theorem setEarned_supplies {earned : EarnedSnapshot} : Supplies s (s.setEarned asset who earned) :=
  SameSupplySide.supplies ⟨rfl, rfl, rfl, rfl, rfl, rfl, fun _ => rfl⟩

theorem mint_supplies (h : doMint s who asset n = .ok s')
    (hconserved : VouchersConserved s) : Supplies s s' := by
  obtain ⟨-, s₁, s₂, s₃, s₄, rate, v, h₁, ⟨rewards, -, h₂⟩, -, h₃, -, -, h₄, s₅, h₅, rfl⟩ :=
    doMint_ok h
  obtain ⟨-, total, rfl⟩ := updateEarnedStored_ok h₃
  have hconserved₁ := (accrueInterest_vouchers h₁).conserved hconserved
  obtain ⟨hsettle, hupdated, hsettled⟩ := settleSuppliers_supplies h₂ hconserved₁
  have hpaid := setEarned_supplies.trans (transfer_supplies h₄)
  have hadded := addVouchers_supplies h₅
    (hpaid.settled asset who (hsettled who (List.mem_singleton.mpr rfl)))
  have hsupply := hadded.updated asset (hpaid.updated asset hupdated)
  exact (((accrueInterest_supplies h₁).trans hsettle).trans (hpaid.trans hadded)).trans
    (setSupply_supplies hsupply)

theorem redeemVoucher_supplies {v paid : ℕ}
    (h : doRedeemVoucher s who asset v = .ok (paid, s')) (hconserved : VouchersConserved s) :
    Supplies s s' := by
  obtain ⟨-, s₁, s₂, rate, ⟨rewards, -, h₁⟩, -, -, h₂, -, h₃⟩ := doRedeemVoucher_ok h
  obtain ⟨hsettle, hupdated, hsettled⟩ := settleSuppliers_supplies h₁ hconserved
  have hremoved := removeVouchers_supplies h₂ (hsettled who (List.mem_singleton.mpr rfl))
  have hsupply := hremoved.updated asset hupdated
  exact ((hsettle.trans hremoved).trans (setSupply_supplies hsupply)).trans (transfer_supplies h₃)

theorem redeem_supplies {n paid : ℕ}
    (h : doRedeem s who asset n = .ok (paid, s')) (hconserved : VouchersConserved s) :
    Supplies s s' := by
  obtain ⟨s₁, s₂, rate, v, h₁, -, h₂, -, h₃⟩ := doRedeem_ok h
  obtain ⟨-, total, rfl⟩ := updateEarnedStored_ok h₂
  have hconserved₁ := (accrueInterest_vouchers h₁).conserved hconserved
  exact ((accrueInterest_supplies h₁).trans setEarned_supplies).trans
    (redeemVoucher_supplies h₃ hconserved₁)

theorem redeemAll_supplies {paid : ℕ}
    (h : doRedeemAll s who asset = .ok (paid, s')) (hconserved : VouchersConserved s) :
    Supplies s s' := by
  obtain ⟨s₁, s₂, rate, h₁, -, h₂, h₃⟩ := doRedeemAll_ok h
  obtain ⟨-, total, rfl⟩ := updateEarnedStored_ok h₂
  have hconserved₁ := (accrueInterest_vouchers h₁).conserved hconserved
  exact ((accrueInterest_supplies h₁).trans setEarned_supplies).trans
    (redeemVoucher_supplies h₃ hconserved₁)

theorem setBorrows_supplies {principal borrows : ℕ} :
    Supplies s ((s.setBorrows asset who principal).setTotalBorrows asset borrows) :=
  SameSupplySide.supplies ⟨rfl, rfl, rfl, rfl, rfl, rfl, fun _ => rfl⟩

theorem borrow_supplies (h : doBorrow s who asset n = .ok s') : Supplies s s' := by
  obtain ⟨s₁, s₂, borrows, h₁, -, -, ⟨rewards, -, h₂⟩, -, h₃⟩ := doBorrow_ok h
  exact ((accrueInterest_supplies h₁).trans (settleBorrower_supplies h₂)).trans
    (setBorrows_supplies.trans (transfer_supplies h₃))

theorem repay_supplies (h : doRepayBorrow s who asset n = .ok s') : Supplies s s' := by
  obtain ⟨s₁, borrows, h₁, -, h₂⟩ := doRepayBorrow_ok h
  obtain ⟨-, s₂, s₃, ⟨rewards, -, h₃⟩, h₄, rfl⟩ := doRepayBorrowWithAmount_ok h₂
  exact ((accrueInterest_supplies h₁).trans (settleBorrower_supplies h₃)).trans
    ((transfer_supplies h₄).trans setBorrows_supplies)

theorem doCollateralAsset_supplies {enable : Bool}
    (h : doCollateralAsset s who asset enable = .ok s') : Supplies s s' := by
  obtain ⟨-, rfl, -⟩ := doCollateralAsset_ok h
  exact setDeposits_supplies (Or.inr rfl)

theorem repayForBorrower_supplies {liquidator borrower : AccountId}
    (h : repayForBorrower s liquidator borrower asset n = .ok s') : Supplies s s' := by
  obtain ⟨s₁, s₂, borrows, ⟨rewards, -, h₁⟩, h₂, -, -, -, rfl⟩ := repayForBorrower_ok h
  exact ((settleBorrower_supplies h₁).trans (transfer_supplies h₂)).trans setBorrows_supplies

theorem liquidate_supplies {who borrower : AccountId} {collateral : CurrencyId}
    (h : liquidateBorrow s who borrower asset n collateral = .ok s')
    (hconserved : VouchersConserved s) : Supplies s s' := by
  obtain ⟨s₁, s₂, s₃, market, amount, h₁, h₂, -, -, -, -, h₃, h₄⟩ := liquidateBorrow_ok h
  have hsame := ((accrueInterest_vouchers h₁).trans (accrueInterest_vouchers h₂)).trans
    (repayForBorrower_vouchers h₃)
  have hrepaid := ((accrueInterest_supplies h₁).trans (accrueInterest_supplies h₂)).trans
    (repayForBorrower_supplies h₃)
  obtain ⟨s₇, s₈, s₉, rate, v, reserved, ⟨rewards', -, h₇⟩, -, -, h₈, -, h₉, h₁₀⟩ :=
    seizeCollateral_ok h₄
  obtain ⟨hsettle, -, hsettled⟩ := settleSuppliers_supplies h₇ (hsame.conserved hconserved)
  have hseized := seizeVouchers_supplies h₈ (hsettled borrower (by simp))
  have hadded := addVouchers_supplies h₉ (hseized.settled _ _ (hsettled who (by simp)))
  have hreserved := addVouchers_supplies h₁₀
    (hadded.settled _ _ (hseized.settled _ _ (hsettled cfg.incentiveRewardAccountId (by simp))))
  exact (hrepaid.trans hsettle).trans ((hseized.trans hadded).trans hreserved)

/-! Claiming and the speed. -/

theorem collectMarketReward_supplies
    (h : s.collectMarketReward asset who = .ok s') (hconserved : VouchersConserved s) :
    Supplies s s' := by
  simp only [State.collectMarketReward, bind_eq_ok] at h
  obtain ⟨s₁, h₁, s₂, h₂, s₃, h₃, h₄⟩ := h
  obtain ⟨hsettle, -⟩ := settleSuppliers_supplies (settleSuppliers_one h₁ h₂) hconserved
  have hborrower : s₂.settleBorrower asset who = .ok s' := bind_eq_ok.mpr ⟨s₃, h₃, h₄⟩
  exact hsettle.trans (settleBorrower_supplies hborrower)

theorem payReward_supplies (h : s.payReward who = .ok s') : Supplies s s' := by
  simp only [State.payReward] at h
  split at h
  · simp only [pure_eq_ok] at h
    exact h ▸ .refl s
  · simp only [bind_eq_ok, pure_eq_ok] at h
    obtain ⟨s₁, h₁, rfl⟩ := h
    exact (transfer_supplies h₁).trans
      (SameSupplySide.supplies ⟨rfl, rfl, rfl, rfl, rfl, rfl, fun _ => rfl⟩)

theorem updateSupplySpeed_supplies {speed : ℕ} (h : updateSupplySpeed s asset speed = .ok s')
    (hconserved : VouchersConserved s) : Supplies s s' := by
  unfold updateSupplySpeed at h
  split at h
  · simp only [pure_eq_ok] at h
    exact h ▸ .refl s
  · simp only [bind_eq_ok, pure_eq_ok] at h
    obtain ⟨s₁, h₁, rfl⟩ := h
    obtain ⟨hupdate, hupdated⟩ := updateRewardSupplyIndex_supplies h₁ hconserved
    apply hupdate.trans
    refine ⟨fun _ hc => hc, fun _ _ hc => hc, fun _ hne => absurd rfl hne,
      fun _ _ hne => absurd rfl hne, ?_⟩
    intro c
    by_cases hca : c = asset
    · subst c
      have hnothing : s₁.blockNumber - (s₁.rewards.supplyState asset).block = 0 :=
        Nat.sub_eq_zero_of_le hupdated
      apply Nat.le_of_eq
      unfold State.supplyDue State.pendingSupply
      simp only [hnothing, Nat.zero_mul]
      rfl
    · apply Nat.le_of_eq
      unfold State.supplyDue State.pendingSupply
      simp only [Function.update_of_ne hca]
      rfl

theorem updateBorrowSpeed_supplies {speed : ℕ} (h : updateBorrowSpeed s asset speed = .ok s') :
    Supplies s s' := by
  unfold updateBorrowSpeed at h
  split at h
  · simp only [pure_eq_ok] at h
    exact h ▸ .refl s
  · simp only [State.updateRewardBorrowIndex, bind_eq_ok, pure_eq_ok] at h
    obtain ⟨_, ⟨state, -, rfl⟩, rfl⟩ := h
    exact SameSupplySide.supplies ⟨rfl, rfl, rfl, rfl, rfl, rfl, fun _ => rfl⟩

def Call.transfersLendToken : Call AccountId → Bool
  | .transferLendToken .. => true
  | _ => false

theorem administers_supplies {a : Call AccountId} (ha : a.administers = true)
    (hblocks : a.blocks = 0) (h : step s a = .ok s') : Supplies s s' := by
  have hframe := step_administers ha h
  have hblock := step_blockNumber ha h
  apply SameSupplySide.supplies
  refine ⟨hblock.trans (by omega), hframe.totalSupply, hframe.accountDeposits, ?_, ?_, ?_, ?_⟩
  · rw [hframe.rewards]
  · rw [hframe.rewards]
  · rw [hframe.rewards]
  · intro c
    unfold State.supplyRewards
    rw [hframe.rewards]

theorem claimReward_supplies (h : claimReward s who = .ok s')
    (hconserved : VouchersConserved s) : Supplies s s' := by
  simp only [claimReward, bind_eq_ok] at h
  obtain ⟨s₁, h₁, h₂⟩ := h
  have hcollected : VouchersConserved s → Supplies s s₁ ∧ VouchersConserved s₁ := by
    apply foldlM_rel (R := fun s s₁ : State cfg => VouchersConserved s →
      Supplies s s₁ ∧ VouchersConserved s₁) _ _ _ h₁
    · intro s hs
      exact ⟨.refl s, hs⟩
    · intro s s₁ s₂ hfirst hrest hs
      obtain ⟨hsupplies, hs₁⟩ := hfirst hs
      obtain ⟨hsupplies', hs₂⟩ := hrest hs₁
      exact ⟨hsupplies.trans hsupplies', hs₂⟩
    · intro s asset s₁ h hs
      have hsupplies := collectMarketReward_supplies h hs
      obtain ⟨rewards, rfl⟩ := collectMarketReward_ok h
      exact ⟨hsupplies, hs⟩
  exact (hcollected hconserved).1.trans (payReward_supplies h₂)

theorem step_supplies {a : Call AccountId} (htransfer : a.transfersLendToken = false)
    (hblocks : a.blocks = 0) (hconserved : VouchersConserved s) (h : step s a = .ok s') :
    Supplies s s' := by
  by_cases hadmin : a.administers = true
  · exact administers_supplies hadmin hblocks h
  · cases a with
    | mint who asset n => exact mint_supplies h hconserved
    | redeem who asset n =>
      simp only [step, bind_eq_ok, pure_eq_ok] at h
      obtain ⟨_, -, ⟨paid, s₁⟩, h₁, rfl⟩ := h
      exact redeem_supplies h₁ hconserved
    | doRedeem who asset n =>
      simp only [step, bind_eq_ok, pure_eq_ok] at h
      obtain ⟨⟨paid, s₁⟩, h₁, rfl⟩ := h
      exact redeem_supplies h₁ hconserved
    | redeemAll who asset =>
      simp only [step, bind_eq_ok, pure_eq_ok] at h
      obtain ⟨⟨paid, s₁⟩, h₁, rfl⟩ := h
      exact redeemAll_supplies h₁ hconserved
    | reduceIncentiveReserves receiver asset n =>
      obtain ⟨rate, v, paid, s₁, -, -, h₁, h₂⟩ := reduceIncentiveReserves_ok h
      exact (redeemVoucher_supplies h₁ hconserved).trans (transfer_supplies h₂)
    | addReward who n =>
      simp only [step, addReward, bind_eq_ok] at h
      obtain ⟨_, -, h⟩ := h
      exact transfer_supplies h
    | withdrawMissingReward target n =>
      simp only [step, withdrawMissingReward, bind_eq_ok] at h
      obtain ⟨_, -, h⟩ := h
      exact transfer_supplies h
    | updateMarketRewardSpeed asset supply borrow =>
      simp only [step, updateMarketRewardSpeed, bind_eq_ok] at h
      obtain ⟨_, -, s₁, h₁, h₂⟩ := h
      exact (updateSupplySpeed_supplies h₁ hconserved).trans (updateBorrowSpeed_supplies h₂)
    | claimReward who => exact claimReward_supplies h hconserved
    | claimRewardForMarket who asset =>
      simp only [step, claimRewardForMarket, bind_eq_ok] at h
      obtain ⟨s₁, h₁, h₂⟩ := h
      exact (collectMarketReward_supplies h₁ hconserved).trans (payReward_supplies h₂)
    | borrow who asset n => exact borrow_supplies h
    | repayBorrow who asset n => exact repay_supplies h
    | repayBorrowAll who asset =>
      obtain ⟨s₁, borrows, h₁, -, h₂⟩ := repayBorrowAll_ok h
      exact (accrueInterest_supplies h₁).trans (repay_supplies h₂)
    | collateralAsset who asset enable =>
      exact doCollateralAsset_supplies (collateralAsset_ok h).2
    | doCollateralAsset who asset enable => exact doCollateralAsset_supplies h
    | liquidateBorrow who borrower asset n collateral => exact liquidate_supplies h hconserved
    | addReserves payer asset n =>
      obtain ⟨s₁, h₁, rfl⟩ := addReserves_ok h
      exact (transfer_supplies h₁).trans
        (SameSupplySide.supplies ⟨rfl, rfl, rfl, rfl, rfl, rfl, fun _ => rfl⟩)
    | reduceReserves receiver asset n =>
      obtain ⟨-, h₁⟩ := reduceReserves_ok h
      have hreserves : Supplies s { s with
          totalReserves := Function.update s.totalReserves asset (s.totalReserves asset - n) } :=
        SameSupplySide.supplies ⟨rfl, rfl, rfl, rfl, rfl, rfl, fun _ => rfl⟩
      exact hreserves.trans (transfer_supplies h₁)
    | accrueInterest asset => exact accrueInterest_supplies h
    | moveAssets asset source dest n => exact transfer_supplies h
    | transferLendToken token source dest n => contradiction
    | _ => exact absurd rfl hadmin

/-! The transfer of lend tokens. -/

/-- A transfer of vouchers leaves no account behind: nothing is transferred, or the token is its
own underlying asset, or the recipient was paid at least as far as the sender. -/
def RecipientPaid (s : State cfg) : Call AccountId → Prop
  | .transferLendToken token source dest n => ∀ asset, s.underlyingAssetId token = some asset →
    n = 0 ∨ asset = token ∨
      s.rewards.supplierIndex asset source ≤ s.rewards.supplierIndex asset dest
  | _ => True

theorem settleSuppliers_supplierIndex {suppliers : List AccountId} {c : CurrencyId}
    (h : s.settleSuppliers asset suppliers = .ok s') (hc : c ≠ asset) :
    s'.rewards.supplierIndex c = s.rewards.supplierIndex c := by
  simp only [State.settleSuppliers, State.updateRewardSupplyIndex, bind_eq_ok, pure_eq_ok] at h
  obtain ⟨_, ⟨state, -, rfl⟩, h₁⟩ := h
  apply foldlM_rel (R := fun s s' : State cfg =>
    s'.rewards.supplierIndex c = s.rewards.supplierIndex c) _ _ _ h₁
  · intro s
    rfl
  · intro s s₁ s₂ hfirst hrest
    exact hrest.trans hfirst
  · intro s who s₁ h
    simp only [State.distributeSupplierReward, bind_eq_ok, pure_eq_ok] at h
    obtain ⟨_, -, _, -, _, -, rfl⟩ := h
    exact Function.update_of_ne hc _ _

theorem supplyDue_setDeposits_ne {o : Option Deposits} {c : CurrencyId}
    (hc : c ≠ asset) : (s.setDeposits asset who o).supplyDue c = s.supplyDue c := by
  have hother : (s.setDeposits asset who o).accountDeposits c = s.accountDeposits c :=
    Function.update_of_ne hc _ _
  unfold State.supplyDue State.supplyOwed
  rw [hother]
  rfl

theorem move_supplyOwed {source dest : AccountId}
    (h : s.removeVouchers asset source n = .ok s₁) (h' : s₁.addVouchers asset dest n = .ok s') :
    s'.supplyOwed asset +
        n * ((s.rewards.supplyState asset).index - s.rewards.supplierIndex asset source) =
      s.supplyOwed asset +
        n * ((s.rewards.supplyState asset).index - s.rewards.supplierIndex asset dest) := by
  obtain ⟨hle, o, rfl, ho⟩ := removeVouchers_ok h
  obtain rfl := addVouchers_ok h'
  have hleft : (o.getD default).voucherBalance = s.vouchersOf asset source - n := by
    rw [ho]
    split
    · exact (by assumption : _ = 0).symm
    · rfl
  have hremoved := supplyOwed_setDeposits s asset source o
  have hadded := supplyOwed_setDeposits (s.setDeposits asset source o) asset dest
    (some { (s.setDeposits asset source o).depositsOf asset dest with
      voucherBalance := ((s.setDeposits asset source o).depositsOf asset dest).voucherBalance + n })
  have hrewards : (s.setDeposits asset source o).rewards = s.rewards := rfl
  rw [hrewards, Option.getD_some, Nat.add_mul] at hadded
  rw [hleft] at hremoved
  have hsplit : s.vouchersOf asset source *
      ((s.rewards.supplyState asset).index - s.rewards.supplierIndex asset source) =
      (s.vouchersOf asset source - n) *
        ((s.rewards.supplyState asset).index - s.rewards.supplierIndex asset source) +
      n * ((s.rewards.supplyState asset).index - s.rewards.supplierIndex asset source) := by
    have hle : n ≤ s.vouchersOf asset source := hle
    rw [← Nat.add_mul, Nat.sub_add_cancel hle]
  unfold State.vouchersOf at hadded
  omega

theorem transferLendToken_supplyDue_le {source dest : AccountId} {token : CurrencyId}
    (h : transferLendToken s token source dest n = .ok s') (hconserved : VouchersConserved s)
    (hpaid : RecipientPaid s (.transferLendToken token source dest n)) (c : CurrencyId) :
    s'.supplyDue c ≤ s.supplyDue c := by
  obtain ⟨-, s₁, s₂, underlying, ⟨rewards, -, h₁⟩, hunderlying, h₂, h₃⟩ := transferLendToken_ok h
  obtain ⟨hsettle, -, hsettled⟩ := settleSuppliers_supplies h₁ hconserved
  have hmoved := move_supplyOwed h₂ h₃
  apply le_trans _ (hsettle.due c)
  obtain ⟨-, o, rfl, -⟩ := removeVouchers_ok h₂
  obtain rfl := addVouchers_ok h₃
  by_cases hc : c = underlying
  · subst c
    have hgap : n * ((s₁.rewards.supplyState underlying).index -
        s₁.rewards.supplierIndex underlying dest) ≤
        n * ((s₁.rewards.supplyState underlying).index -
          s₁.rewards.supplierIndex underlying source) := by
      rcases hpaid underlying hunderlying with rfl | htoken | hindex
      · rw [Nat.zero_mul]
        exact Nat.zero_le _
      · subst htoken
        rw [(hsettled dest (by simp)).2, Nat.sub_self]
        exact Nat.zero_le _
      · by_cases htoken : underlying = token
        · subst htoken
          rw [(hsettled dest (by simp)).2, Nat.sub_self]
          exact Nat.zero_le _
        · rw [settleSuppliers_supplierIndex h₁ htoken]
          exact Nat.mul_le_mul_left n (Nat.sub_le_sub_left hindex _)
    apply Nat.add_le_add_right (Nat.add_le_add_left _ _) _
    omega
  · rw [supplyDue_setDeposits_ne hc, supplyDue_setDeposits_ne hc]

theorem step_supplyDue_le {a : Call AccountId} (hconserved : VouchersConserved s)
    (hpaid : RecipientPaid s a) (h : step s a = .ok s') (c : CurrencyId) :
    s'.supplyDue c ≤
      s.supplyDue c + rewardScale * (a.blocks * s.rewards.supplySpeed c) := by
  by_cases hblocks : a.blocks = 0
  · rw [hblocks, Nat.zero_mul]
    cases htransfer : a.transfersLendToken with
    | false => exact (step_supplies htransfer hblocks hconserved h).due c
    | true =>
      cases a with
      | transferLendToken token source dest n =>
        exact transferLendToken_supplyDue_le h hconserved hpaid c
      | _ => contradiction
  · cases a with
    | advance seconds blocks =>
      simp only [step, pure_eq_ok] at h
      subst h
      have hlater : s.blockNumber + blocks - (s.rewards.supplyState c).block ≤
          (s.blockNumber - (s.rewards.supplyState c).block) + blocks := by omega
      have hpending := Nat.mul_le_mul_left rewardScale
        (Nat.mul_le_mul_right (s.rewards.supplySpeed c) hlater)
      rw [Nat.add_mul, Nat.mul_add] at hpending
      show rewardScale * s.supplyRewards c + s.supplyOwed c + rewardScale *
          ((s.blockNumber + blocks - (s.rewards.supplyState c).block) * s.rewards.supplySpeed c) ≤
        rewardScale * s.supplyRewards c + s.supplyOwed c + rewardScale * ((s.blockNumber -
            (s.rewards.supplyState c).block) * s.rewards.supplySpeed c) +
          rewardScale * (blocks * s.rewards.supplySpeed c)
      omega
    | _ => exact absurd rfl hblocks

theorem run_supplyDue_le {as : List (Call AccountId)} (hconserved : VouchersConserved s)
    (has : Meets step (fun s a => ReserveCovered s a ∧ RecipientPaid s a) s as) (c : CurrencyId) :
    (run step s as).supplyDue c ≤ s.supplyDue c + rewardScale * supplyBudget s as c := by
  induction as generalizing s with
  | nil => exact Nat.le_refl _
  | cons a as ih =>
    obtain ⟨ha, hrest⟩ := has
    have hstep : VouchersConserved (exec step s a) ∧ (exec step s a).supplyDue c ≤
        s.supplyDue c + rewardScale * (a.blocks * s.rewards.supplySpeed c) := by
      rcases exec_cases step s a with h | h
      · obtain ⟨hcovered, hpaid⟩ := ha _ h
        exact ⟨(step_conserved_iff h hconserved).mpr hcovered,
          step_supplyDue_le hconserved hpaid h c⟩
      · rw [h]
        exact ⟨hconserved, Nat.le_add_right _ _⟩
    have hlater := ih hstep.1 hrest
    have hbudget : supplyBudget s (a :: as) c =
        a.blocks * s.rewards.supplySpeed c + supplyBudget (exec step s a) as c := rfl
    rw [run_cons, hbudget, Nat.mul_add]
    omega

/-- The supply rewards accrued for a market are at most its reward speed summed over the blocks
of the run, where liquidations reserve no more than they take and lend tokens go to accounts
that were paid as far as the sender; and every step but a lend-token transfer changes vouchers
and totals only under an up-to-date index, of accounts settled against it. -/
theorem supply_rewards_bounded (ledger : cfg.assets.Ledger)
    (prices : CurrencyId → Option FixedU128) (now block : ℕ) (as : List (Call AccountId))
    (has : Meets step (fun s a => ReserveCovered s a ∧ RecipientPaid s a)
      (genesis cfg ledger prices now block) as) :
    let s := run step (genesis cfg ledger prices now block) as
    (∀ asset, s.supplyRewards asset ≤
        supplyBudget (genesis cfg ledger prices now block) as asset) ∧
      ∀ a s', step s a = .ok s' → a.transfersLendToken = false → ∀ asset,
        (s'.totalSupply asset ≠ s.totalSupply asset → SupplyUpdated s' asset) ∧
        ∀ who, s'.vouchersOf asset who ≠ s.vouchersOf asset who →
          SupplierSettled s' asset who := by
  intro s
  have hgenesis : VouchersConserved (genesis cfg ledger prices now block) :=
    conserved_genesis ledger prices now block
  refine ⟨?_, ?_⟩
  · intro asset
    have hdue := run_supplyDue_le hgenesis has asset
    have hempty : (genesis cfg ledger prices now block).supplyDue asset = 0 := by
      show rewardScale * 0 + 0 + rewardScale * ((block - 0) * 0) = 0
      simp only [Nat.mul_zero, Nat.add_zero]
    rw [hempty, Nat.zero_add] at hdue
    have hcredited : rewardScale * s.supplyRewards asset ≤ s.supplyDue asset :=
      (Nat.le_add_right _ _).trans (Nat.le_add_right _ _)
    exact Nat.le_of_mul_le_mul_left (hcredited.trans hdue) (by decide)
  · intro a s' h htransfer asset
    have hconserved : VouchersConserved s := conserved_run hgenesis (has.imp fun _ _ ha => ha.1)
    by_cases hblocks : a.blocks = 0
    · have hsupplies := step_supplies htransfer hblocks hconserved h
      exact ⟨hsupplies.supply asset, hsupplies.vouchers asset⟩
    · cases a with
      | advance seconds blocks =>
        simp only [step, pure_eq_ok] at h
        subst h
        exact ⟨fun hne => absurd rfl hne, fun _ hne => absurd rfl hne⟩
      | _ => exact absurd rfl hblocks

namespace Sample

def farmed : List (Call ℕ) :=
  [.addMarket dot market, .activateMarket dot, .mint 1 dot 10000,
    .updateMarketRewardSpeed dot (some 1000) none, .addReward 2 50000, .advance 60 10,
    .claimRewardForMarket 1 dot]

def toThird : Call ℕ := .transferLendToken (.lend 0) 1 3 200000

def farmedOn : List (Call ℕ) :=
  [toThird, .advance 60 10, .claimRewardForMarket 1 dot, .claimRewardForMarket 3 dot]

theorem toThird_paid : RecipientPaid
    (run step wealthy (farmed ++ [.claimRewardForMarket 3 dot])) toThird := by
  have htoken : (run step wealthy (farmed ++ [.claimRewardForMarket 3 dot])).underlyingAssetId
      (.lend 0) = some dot := by decide +kernel
  have hindex : (run step wealthy (farmed ++ [.claimRewardForMarket 3 dot])).rewards.supplierIndex
      dot 1 ≤ (run step wealthy (farmed ++ [.claimRewardForMarket 3 dot])).rewards.supplierIndex
        dot 3 := by decide +kernel
  generalize run step wealthy (farmed ++ [.claimRewardForMarket 3 dot]) = s at *
  intro asset hasset
  rw [htoken] at hasset
  cases hasset
  exact Or.inr (Or.inr hindex)

end Sample

/-- Account 3 claims before it receives vouchers, and is paid from there on. -/
theorem supply_rewards_bounded_sample :
    let as := Sample.farmed ++ [.claimRewardForMarket 3 Sample.dot] ++ Sample.farmedOn
    (run step Sample.wealthy as).supplyRewards Sample.dot ≤
        supplyBudget Sample.wealthy as Sample.dot ∧
      supplyBudget Sample.wealthy as Sample.dot = 20000 := by
  intro as
  have hbudget : supplyBudget Sample.wealthy as Sample.dot = 20000 := by decide +kernel
  have hcalls : ∀ a ∈ Sample.farmed ++ [.claimRewardForMarket 3 Sample.dot],
      ∀ s : State Sample.config, ReserveCovered s a ∧ RecipientPaid s a := by
    repeat' refine List.forall_mem_cons.mpr ⟨fun _ => ⟨trivial, trivial⟩, ?_⟩
    exact List.forall_mem_nil _
  have hlater : Meets step (fun s a => ReserveCovered s a ∧ RecipientPaid s a)
      (run step Sample.wealthy (Sample.farmed ++ [.claimRewardForMarket 3 Sample.dot]))
      Sample.farmedOn :=
    ⟨fun _ _ => ⟨trivial, Sample.toThird_paid⟩, fun _ _ => ⟨trivial, trivial⟩,
      fun _ _ => ⟨trivial, trivial⟩, fun _ _ => ⟨trivial, trivial⟩, trivial⟩
  have hmeets := meets_append (meets_of_forall _ hcalls Sample.wealthy) hlater
  have hbound := (@supply_rewards_bounded ℕ Sample.config _ Sample.wealth
    (fun _ => some .one) 1 1 _ hmeets).1 Sample.dot
  exact ⟨hbound, hbudget⟩

/-- Account 3 claims only after it received vouchers, and is paid for the ten blocks as well. -/
theorem supply_rewards_doubled :
    let as := Sample.farmed ++ [Sample.toThird, .claimRewardForMarket 3 Sample.dot]
    (run step Sample.wealthy as).supplyRewards Sample.dot = 14000 ∧
      supplyBudget Sample.wealthy as Sample.dot = 10000 := by
  decide +kernel

end Bifrost.LendMarket
