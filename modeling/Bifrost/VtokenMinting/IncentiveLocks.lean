import Bifrost.VtokenMinting.Incentive

/-!
# The incentive locks are what the records say

In every run the total of a lock ledger is the sum of its records and the amount of the lock.
An unlock lets go exactly what is due when no record that is not due stands before one that is,
and what is left holds something.
-/

namespace Bifrost.VtokenMinting

open Machine Result
set_option autoImplicit false

def LockLedger.sum (rs : List LockRecord) : ℕ := (rs.map LockRecord.amount).sum

@[simp] theorem LockLedger.sum_nil : LockLedger.sum [] = 0 := rfl

@[simp] theorem LockLedger.sum_cons (r : LockRecord) (rs : List LockRecord) :
    LockLedger.sum (r :: rs) = r.amount + LockLedger.sum rs := by
  simp [LockLedger.sum]

@[simp] theorem LockLedger.sum_append (rs qs : List LockRecord) :
    LockLedger.sum (rs ++ qs) = LockLedger.sum rs + LockLedger.sum qs := by
  simp [LockLedger.sum]

def LockRecord.isDue (now : ℕ) (r : LockRecord) : Bool := r.dueBlock ≤ now

/-! The loop of the unlock. -/

theorem dueRecords_amount (now : ℕ) (rs : List LockRecord) :
    (dueRecords now rs).1 + LockLedger.sum (rs.drop (dueRecords now rs).2) =
      LockLedger.sum rs := by
  induction rs with
  | nil => rfl
  | cons r rs ih =>
    unfold dueRecords
    split
    · simp only [List.drop_succ_cons, LockLedger.sum_cons]
      omega
    · simp

theorem dueRecords_drop (now : ℕ) (rs : List LockRecord) :
    rs.drop (dueRecords now rs).2 = rs.dropWhile (LockRecord.isDue now) := by
  induction rs with
  | nil => rfl
  | cons r rs ih =>
    unfold dueRecords
    by_cases hdue : r.dueBlock ≤ now
    · rw [if_pos hdue, List.dropWhile_cons_of_pos (by simpa [LockRecord.isDue] using hdue)]
      exact ih
    · rw [if_neg hdue, List.dropWhile_cons_of_neg (by simpa [LockRecord.isDue] using hdue)]
      rfl

/-- The records that are not due yet. -/
def notDue (now : ℕ) (rs : List LockRecord) : List LockRecord :=
  rs.filter fun r => !r.isDue now

/-- A record before one that is due is due. -/
def DueFirst (now : ℕ) (rs : List LockRecord) : Prop :=
  rs.Pairwise fun a b => b.dueBlock ≤ now → a.dueBlock ≤ now

theorem notDue_eq_self {now : ℕ} {rs : List LockRecord} :
    notDue now rs = rs ↔ ∀ r ∈ rs, ¬ r.dueBlock ≤ now := by
  simp [notDue, List.filter_eq_self, LockRecord.isDue]

theorem dropWhile_eq_notDue_iff (now : ℕ) (rs : List LockRecord) :
    rs.dropWhile (LockRecord.isDue now) = notDue now rs ↔ DueFirst now rs := by
  induction rs with
  | nil => exact iff_of_true rfl List.Pairwise.nil
  | cons r rs ih =>
    by_cases hdue : r.dueBlock ≤ now
    · have hbool : LockRecord.isDue now r = true := by simpa [LockRecord.isDue] using hdue
      rw [List.dropWhile_cons_of_pos hbool]
      have hfilter : notDue now (r :: rs) = notDue now rs := by simp [notDue, hbool]
      rw [hfilter, ih, DueFirst, DueFirst, List.pairwise_cons]
      exact ⟨fun h => ⟨fun _ _ _ => hdue, h⟩, And.right⟩
    · have hbool : ¬ LockRecord.isDue now r = true := by simpa [LockRecord.isDue] using hdue
      rw [List.dropWhile_cons_of_neg hbool]
      have hfilter : notDue now (r :: rs) = r :: notDue now rs := by simp [notDue, hbool]
      rw [hfilter, List.cons_inj_right, eq_comm, notDue_eq_self, DueFirst, List.pairwise_cons]
      constructor
      · intro hnone
        refine ⟨fun b hb hb' => absurd hb' (hnone b hb), ?_⟩
        exact List.pairwise_of_forall_mem_list fun a _ b hb hb' => absurd hb' (hnone b hb)
      · intro h b hb hb'
        exact hdue (h.1 b hb hb')

/-- The records an unlock should leave can be told from those it does leave. -/
def Unlocks (now : ℕ) (rs : List LockRecord) : Prop :=
  DueFirst now rs ∧ (notDue now rs ≠ [] → LockLedger.sum (notDue now rs) ≠ 0)

/-- What an unlock leaves of the records. -/
def leftRecords (now : ℕ) (rs : List LockRecord) : List LockRecord :=
  if LockLedger.sum (rs.dropWhile (LockRecord.isDue now)) = 0 then []
  else rs.dropWhile (LockRecord.isDue now)

theorem leftRecords_eq_notDue_iff (now : ℕ) (rs : List LockRecord) :
    leftRecords now rs = notDue now rs ↔ Unlocks now rs := by
  have hloop := dropWhile_eq_notDue_iff now rs
  unfold leftRecords
  split
  · rename_i hzero
    constructor
    · intro hnil
      have hdue : ∀ r ∈ rs, r.dueBlock ≤ now := by
        have := List.filter_eq_nil_iff.mp hnil.symm
        simpa [LockRecord.isDue] using this
      refine ⟨?_, fun hne => absurd hnil.symm hne⟩
      exact List.pairwise_of_forall_mem_list fun a ha _ _ _ => hdue a ha
    · intro h
      by_contra hne
      rw [hloop.mpr h.1] at hzero
      exact h.2 (Ne.symm hne) hzero
  · rename_i hpos
    rw [hloop]
    refine ⟨fun h => ⟨h, fun _ => ?_⟩, And.left⟩
    rwa [hloop.mpr h] at hpos

section Runs

variable {AccountId : Type} [DecidableEq AccountId] {cfg : IncentiveConfig AccountId}
  {s s' : IncentiveState cfg}

def IncentiveState.lockRecords (s : IncentiveState cfg) (who : AccountId) (v : CurrencyId) :
    List LockRecord :=
  ((s.vtokenLockLedger who v).map LockLedger.records).getD []

def IncentiveState.lockTotal (s : IncentiveState cfg) (who : AccountId) (v : CurrencyId) : ℕ :=
  ((s.vtokenLockLedger who v).map LockLedger.total).getD 0

/-- The total of an account's ledger is the sum of its records and the lock on its vTokens. -/
def LocksAgree (s : IncentiveState cfg) : Prop :=
  ∀ who v, s.lockTotal who v = LockLedger.sum (s.lockRecords who v) ∧
    cfg.lock s.ledger v who = s.lockTotal who v

omit [DecidableEq AccountId] in
theorem LocksAgree.of_same (hs : LocksAgree s) (hledger : s'.vtokenLockLedger = s.vtokenLockLedger)
    (hlock : cfg.lock s'.ledger = cfg.lock s.ledger) : LocksAgree s' := by
  intro who v
  have h := hs who v
  simp only [IncentiveState.lockTotal, IncentiveState.lockRecords] at h ⊢
  rw [hledger, hlock]
  exact h

theorem LocksAgree.write (hs : LocksAgree s) {who : AccountId} {v : CurrencyId}
    {l : Option LockLedger} {L : cfg.currency.Ledger}
    (htotal : (l.map LockLedger.total).getD 0 =
      LockLedger.sum ((l.map LockLedger.records).getD []))
    (hself : cfg.lock L v who = (l.map LockLedger.total).getD 0)
    (hframe : ∀ d y, d ≠ v ∨ y ≠ who → cfg.lock L d y = cfg.lock s.ledger d y) :
    LocksAgree { s.setLockLedger who v l with ledger := L } := by
  intro x d
  by_cases hx : x = who ∧ d = v
  · obtain ⟨rfl, rfl⟩ := hx
    simp only [IncentiveState.lockTotal, IncentiveState.lockRecords, IncentiveState.setLockLedger,
      and_self, if_true]
    exact ⟨htotal, hself⟩
  · have hold := hs x d
    simp only [IncentiveState.lockTotal, IncentiveState.lockRecords, IncentiveState.setLockLedger,
      if_neg hx] at hold ⊢
    rw [hframe d x (by tauto)]
    exact hold

omit [DecidableEq AccountId] in
theorem doMint_lock {t t' : State cfg.toConfig} {minter : AccountId} {c v : CurrencyId}
    {amount m : ℕ} {channel : Option ℕ} (h : doMint t minter c amount channel = .ok (v, m, t')) :
    cfg.lock t'.ledger = cfg.lock t.ledger := by
  obtain ⟨n, fee, L, L₁, L₂, -, hfee, hdeposit, htransfer, hrecord⟩ := doMint_tokens h
  rw [cfg.recordMintAmount_lock hrecord, cfg.transfer_lock htransfer, cfg.deposit_lock hdeposit,
    cfg.transfer_lock hfee]

theorem addLockRecord_ok {max : ℕ} {o : Option LockLedger} {amount dueBlock : ℕ} {l : LockLedger}
    (h : addLockRecord max o amount dueBlock = .ok l) :
    l = ⟨(o.map LockLedger.total).getD 0 + amount,
      (o.map LockLedger.records).getD [] ++ [⟨amount, dueBlock⟩]⟩ := by
  cases o with
  | none =>
    simp only [addLockRecord, bind_eq_ok, ensure_eq_ok, pure_eq_ok] at h
    obtain ⟨-, -, rfl⟩ := h
    simp
  | some l₀ =>
    simp only [addLockRecord, bind_eq_ok, ensure_eq_ok, okOr_eq_ok, pure_eq_ok,
      U128.checkedAdd_eq_some] at h
    obtain ⟨_, ⟨rfl, -⟩, -, -, rfl⟩ := h
    rfl

theorem lockVtoken_agree {minter : AccountId} {v : CurrencyId} {n : ℕ} (hs : LocksAgree s)
    (h : lockVtokenForIncentiveMinting s minter v n = .ok s') : LocksAgree s' := by
  simp only [lockVtokenForIncentiveMinting, bind_eq_ok, mapErr_eq_ok, okOr_eq_ok, pure_eq_ok] at h
  obtain ⟨-, -, duration, -, dueBlock, -, l, hl, L, hL, rfl⟩ := h
  have hl' := addLockRecord_ok hl
  obtain ⟨htotal, hlock⟩ := hs minter v
  simp only [IncentiveState.lockTotal, IncentiveState.lockRecords] at htotal hlock
  subst l
  apply hs.write
  · simp only [Option.map_some, Option.getD_some, LockLedger.sum_append, LockLedger.sum_cons,
      LockLedger.sum_nil]
    omega
  · -- a first record of nothing leaves no lock, as there was none
    refine cfg.setLock_self hL ?_
    simp only [Option.map_some, Option.getD_some]
    omega
  · intro d y hne
    exact cfg.setLock_frame hL hne

theorem mintWithLock_agree {minter : AccountId} {c : CurrencyId} {n : ℕ} {channel : Option ℕ}
    (hs : LocksAgree s) (h : mintWithLock s minter c n channel = .ok s') : LocksAgree s' := by
  simp only [mintWithLock, bind_eq_ok, ensure_eq_ok, mapErr_eq_ok, pure_eq_ok] at h
  obtain ⟨-, -, -, -, _, -, -, -, v, -, -, -, -, -, ⟨w, m, t⟩, hmint, s₁, hlock, bonus, -, L, hL,
    rfl⟩ := h
  have hminted : LocksAgree { s with toState := t } := hs.of_same rfl (doMint_lock hmint)
  exact (lockVtoken_agree hminted hlock).of_same rfl (cfg.transfer_lock hL)

theorem unlock_ok {who : AccountId} {v : CurrencyId} (hs : LocksAgree s)
    (h : unlockIncentiveMintedVtoken s who v = .ok s') :
    LocksAgree s' ∧ s'.lockRecords who v =
      leftRecords (cfg.currentBlockNumber s.ledger) (s.lockRecords who v) := by
  simp only [unlockIncentiveMintedVtoken, bind_eq_ok, ensure_eq_ok, okOr_eq_ok,
    U128.checkedSub_eq_some] at h
  obtain ⟨l, hl, -, hpos, remaining, ⟨hle, rfl⟩, h⟩ := h
  obtain ⟨htotal, -⟩ := hs who v
  simp only [IncentiveState.lockTotal, IncentiveState.lockRecords, hl, Option.map_some,
    Option.getD_some] at htotal
  have hamount := dueRecords_amount (cfg.currentBlockNumber s.ledger) l.records
  have hdrop := dueRecords_drop (cfg.currentBlockNumber s.ledger) l.records
  have hold : s.lockRecords who v = l.records := by simp [IncentiveState.lockRecords, hl]
  rw [hold, leftRecords, ← hdrop]
  split at h
  · rename_i hzero
    simp only [bind_eq_ok, mapErr_eq_ok, pure_eq_ok] at h
    obtain ⟨L, hL, rfl⟩ := h
    refine ⟨hs.write rfl (cfg.removeLock_self hL) fun d y hne => cfg.removeLock_frame hL hne, ?_⟩
    rw [if_pos (by omega)]
    simp [IncentiveState.lockRecords, IncentiveState.setLockLedger]
  · rename_i hleft
    simp only [bind_eq_ok, mapErr_eq_ok, pure_eq_ok] at h
    obtain ⟨L, hL, rfl⟩ := h
    refine ⟨hs.write ?_ ?_ fun d y hne => cfg.setLock_frame hL hne, ?_⟩
    · simp only [Option.map_some, Option.getD_some]
      omega
    · exact cfg.setLock_self hL (Or.inl hleft)
    · rw [if_neg (by omega)]
      simp [IncentiveState.lockRecords, IncentiveState.setLockLedger]

theorem incentiveStep_agree {a : IncentiveCall cfg} (hs : LocksAgree s)
    (h : incentiveStep s a = .ok s') : LocksAgree s' := by
  cases a with
  | mintWithLock minter c n channel => exact mintWithLock_agree hs h
  | unlockIncentiveMintedVtoken who v => exact (unlock_ok hs h).1
  | setIncentiveCoef v coef =>
    simp only [incentiveStep, pure_eq_ok] at h
    subst s'
    exact hs.of_same rfl rfl
  | setVtokenIncentiveLockBlocks v blocks =>
    simp only [incentiveStep, pure_eq_ok] at h
    subst s'
    exact hs.of_same rfl rfl
  | outside f =>
    simp only [incentiveStep, pure_eq_ok] at h
    subst s'
    exact hs.of_same rfl (f.2 s.toState)

omit [DecidableEq AccountId] in
theorem locksAgree_genesis {t : State cfg.toConfig} (h : ∀ v x, cfg.lock t.ledger v x = 0) :
    LocksAgree (incentiveGenesis cfg t) := by
  intro who v
  exact ⟨rfl, h v who⟩

/-- In every run the total of a ledger, its records and the lock agree, and a successful unlock
leaves exactly the records that are not due if and only if the due ones come first and what is
not due holds something. -/
theorem incentive_locks_agree (t : State cfg.toConfig) (ht : ∀ v x, cfg.lock t.ledger v x = 0)
    (as : List (IncentiveCall cfg)) :
    let s := run incentiveStep (incentiveGenesis cfg t) as
    LocksAgree s ∧ ∀ who v s', unlockIncentiveMintedVtoken s who v = .ok s' →
      LocksAgree s' ∧ (s'.lockRecords who v =
        notDue (cfg.currentBlockNumber s.ledger) (s.lockRecords who v) ↔
          Unlocks (cfg.currentBlockNumber s.ledger) (s.lockRecords who v)) := by
  intro s
  have hs : LocksAgree s :=
    run_invariant (I := LocksAgree) (fun _ _ _ hs _ h => incentiveStep_agree hs h) as
      (locksAgree_genesis ht) (meets_true as _)
  refine ⟨hs, fun who v s' h => ?_⟩
  obtain ⟨hs', hleft⟩ := unlock_ok hs h
  refine ⟨hs', ?_⟩
  rw [hleft]
  exact leftRecords_eq_notDue_iff _ _

end Runs

/-! Account 1 holds HP_ETH and all the bbBNC, account 104 is the incentive pool; what is locked
cannot be paid out. -/

namespace Sample

structure LockedAccounts where
  accounts : Tokens.Accounts ℕ
  locks : CurrencyId → ℕ → ℕ
  block : ℕ

/-- A payment out of an account leaves what is locked. -/
def LockedAccounts.pay (L : LockedAccounts) (c : CurrencyId) (x : ℕ)
    (paid : Except TokenError (Tokens.Accounts ℕ)) : Except TokenError LockedAccounts :=
  match paid with
  | .ok accounts =>
    if L.accounts c x ≤ accounts c x ∨ L.locks c x ≤ accounts c x then .ok { L with accounts }
    else .error .liquidityRestrictions
  | .error e => .error e

theorem LockedAccounts.pay_ok {L L' : LockedAccounts} {c : CurrencyId} {x : ℕ}
    {paid : Except TokenError (Tokens.Accounts ℕ)} (h : L.pay c x paid = .ok L') :
    paid = .ok L'.accounts ∧ L'.locks = L.locks := by
  unfold LockedAccounts.pay at h
  split at h
  · split at h
    · cases h
      exact ⟨rfl, rfl⟩
    · contradiction
  · contradiction

def LockedAccounts.setLock (L : LockedAccounts) (c : CurrencyId) (x n : ℕ) : LockedAccounts :=
  { L with locks := fun d y => if d = c ∧ y = x then n else L.locks d y }

def lockedCurrency : MultiCurrency ℕ where
  Ledger := LockedAccounts
  minimumBalance := fun _ => 0
  freeBalance := fun L => L.accounts
  transfer := fun L c a b n => L.pay c a (Tokens.transfer (fun _ => 0) L.accounts c a b n)
  deposit := fun L c x n => L.pay c x (Tokens.deposit (fun _ => 0) L.accounts c x n)
  withdraw := fun L c x n => L.pay c x (Tokens.withdraw L.accounts c x n)
  transfer_moves := fun h hab =>
    (Tokens.multiCurrency ℕ fun _ => 0).transfer_moves (LockedAccounts.pay_ok h).1 hab
  transfer_frame := fun h hframe =>
    (Tokens.multiCurrency ℕ fun _ => 0).transfer_frame (LockedAccounts.pay_ok h).1 hframe
  transfer_low := by
    intro L c a b n h
    apply (Tokens.multiCurrency ℕ fun _ => 0).transfer_low (b := b)
    unfold LockedAccounts.pay at h
    split at h
    · split at h
      · contradiction
      · exact absurd (Except.error.inj h) (by decide)
    · rename_i e he
      cases h
      exact he

def incentiveConfig : IncentiveConfig ℕ where
  currency := lockedCurrency
  entranceAccount := 100
  feeAccount := 101
  redeemFeeAccount := 102
  limits := ⟨10, 50⟩
  moonbeamChainId := 2004
  getHyperbridgePayerAndFee := fun _ _ => .ok (100, 0)
  getMoonbeamTransferToFee := fun _ => 0
  sendAndCall := fun L _ _ _ _ _ _ _ => .ok L
  xcmTransfer := fun L _ _ _ _ => .ok L
  xcmTransferMulticurrencies := fun L _ _ _ _ => .ok L
  onRedeemSuccess := fun L _ _ _ => L
  onRedeemed := fun L _ _ _ _ _ => L
  recordMintAmount := fun L _ _ _ => .ok L
  recordRedeemAmount := fun L _ _ => .ok L
  incentivePoolAccount := 104
  maxLockRecords := 64
  currentBlockNumber := LockedAccounts.block
  bbBncBalanceOf := fun _ x => .ok (if x = 1 then 1000 else 0)
  bbBncTotalSupply := fun _ _ => .ok 1000
  ensureCanWithdraw := fun (L : LockedAccounts) c x n =>
    if n ≤ L.accounts c x then .ok () else .error .balanceTooLow
  lock := LockedAccounts.locks
  setLock := fun (L : LockedAccounts) c x n => if n = 0 then .ok L else .ok (L.setLock c x n)
  removeLock := fun (L : LockedAccounts) c x => .ok (L.setLock c x 0)
  setLock_self := by
    intro L L' c x n h hn
    split at h
    · rename_i hzero
      cases h
      rw [hn.resolve_left (absurd hzero), hzero]
    · cases h
      exact if_pos ⟨rfl, rfl⟩
  setLock_frame := by
    intro L L' c x n d y h hne
    split at h
    · cases h
      rfl
    · cases h
      exact if_neg (by tauto)
  removeLock_self := by
    intro L L' c x h
    cases h
    simp [LockedAccounts.setLock]
  removeLock_frame := by
    intro L L' c x d y h hne
    cases h
    exact if_neg (by tauto)
  transfer_lock := fun h => (LockedAccounts.pay_ok h).2
  deposit_lock := fun h => (LockedAccounts.pay_ok h).2
  recordMintAmount_lock := by
    intro L L' channel c n h
    cases h
    rfl

def holdings : LockedAccounts where
  accounts := fun c x =>
    if c = hpEth ∧ x = 1 then 1000 else if c = vEth ∧ x = 104 then 10 else 0
  locks := fun _ _ => 0
  block := 1

/-- HP_ETH is mapped to vETH, of which 1000 were issued against 1000 HP_ETH. -/
def openState : State incentiveConfig.toConfig :=
  { genesis incentiveConfig.toConfig holdings with
    minimumMint := fun _ => some 1
    tokenPool := fun c => if c = vEth then 1000 else 0
    vtokenIssuance := fun c => if c = vEth then 1000 else 0
    vTokenToTokens := fun c => if c = vEth then some [⟨hpEth, true⟩] else none
    tokenToVToken := fun c => if c = hpEth then some vEth else none }

/-- Blocks pass until `n`. -/
def toBlock (n : ℕ) : IncentiveCall incentiveConfig :=
  .outside ⟨fun s => { s with ledger := { (s.ledger : LockedAccounts) with block := n } },
    fun _ => rfl⟩

/-- Three mints of 100 under durations of 10, `longer` and 10 blocks; then block 50. -/
def threeLocks (longer : ℕ) : List (IncentiveCall incentiveConfig) :=
  [.setIncentiveCoef vEth (some 1), .setVtokenIncentiveLockBlocks vEth (some 10),
    .mintWithLock 1 hpEth 100 none, .setVtokenIncentiveLockBlocks vEth (some longer),
    .mintWithLock 1 hpEth 100 none, .setVtokenIncentiveLockBlocks vEth (some 10),
    .mintWithLock 1 hpEth 100 none, toBlock 50]

end Sample

theorem incentive_locks_agree_sample :
    LocksAgree (run incentiveStep (incentiveGenesis Sample.incentiveConfig Sample.openState)
      (Sample.threeLocks 10)) :=
  (@incentive_locks_agree _ _ Sample.incentiveConfig Sample.openState (fun _ _ => rfl)
    (Sample.threeLocks 10)).1

/-- With the longer duration in the middle, the unlock at block 50 stops there: the third
record, due since block 11, stays locked. -/
theorem due_record_stays_locked :
    let s := run incentiveStep (incentiveGenesis Sample.incentiveConfig Sample.openState)
      (Sample.threeLocks 100)
    s.lockRecords 1 vEth = [⟨100, 11⟩, ⟨100, 101⟩, ⟨100, 11⟩] ∧
      ∃ s', unlockIncentiveMintedVtoken s 1 vEth = .ok s' ∧
        s'.lockRecords 1 vEth = [⟨100, 101⟩, ⟨100, 11⟩] ∧
          notDue (Sample.incentiveConfig.currentBlockNumber s.ledger) (s.lockRecords 1 vEth) =
            [⟨100, 101⟩] := by
  intro s
  have hrecords : s.lockRecords 1 vEth = [⟨100, 11⟩, ⟨100, 101⟩, ⟨100, 11⟩] := by decide +kernel
  have hok : (unlockIncentiveMintedVtoken s 1 vEth).toBool = true := by decide +kernel
  have hleft : (unlockIncentiveMintedVtoken s 1 vEth).toOption.map
    (fun s' => s'.lockRecords 1 vEth) = some [⟨100, 101⟩, ⟨100, 11⟩] := by decide +kernel
  have hdue : notDue (Sample.incentiveConfig.currentBlockNumber s.ledger) (s.lockRecords 1 vEth) =
    [⟨100, 101⟩] := by decide +kernel
  obtain ⟨s', hs'⟩ := exists_of_toBool hok
  refine ⟨hrecords, s', hs', ?_, hdue⟩
  rw [hs'] at hleft
  exact Option.some_inj.mp hleft

end Bifrost.VtokenMinting
