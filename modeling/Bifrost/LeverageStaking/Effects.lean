import Bifrost.LendMarket.Positions
import Bifrost.LeverageStaking.Pallet
import Bifrost.VtokenMinting.Transitions

/-!
# What a flash loan moves

Each part of the call in turn, then the two ways it can go. The caller's balance of the asset
comes back to what it was, or ends above it by what the swap pays beyond the repaid debt; the other
accounts that change are those of the pallets.
-/

namespace Bifrost.LeverageStaking

open Result
set_option autoImplicit false

variable {AccountId : Type} [DecidableEq AccountId] {cfg : Config AccountId} {s s' s₁ : State cfg}
  {who : AccountId} {asset vtoken c : CurrencyId} {n : ℕ}

/-! The parts. -/

theorem mintInto_ok (h : s.mintInto asset who n = .ok s') :
    ∃ L, cfg.mintInto s.ledger asset who n = .ok L ∧ s' = s.setLedger L := by
  simp only [State.mintInto, bind_eq_ok, mapErr_eq_ok, pure_eq_ok] at h
  obtain ⟨L, hL, rfl⟩ := h
  exact ⟨L, hL, rfl⟩

theorem burnFrom_ok (h : s.burnFrom asset who n = .ok s') :
    ∃ L, cfg.burnFrom s.ledger asset who n = .ok L ∧ s' = s.setLedger L := by
  simp only [State.burnFrom, bind_eq_ok, mapErr_eq_ok, pure_eq_ok] at h
  obtain ⟨L, hL, rfl⟩ := h
  exact ⟨L, hL, rfl⟩

theorem withLend_ok {f : LendMarket.State cfg.lend →
      Except LendMarket.Fault (LendMarket.State cfg.lend)} (h : s.withLend f = .ok s') :
    ∃ lend, f s.lend = .ok lend ∧ s' = { s with lend := lend } := by
  simp only [State.withLend, bind_eq_ok, mapErr_eq_ok, pure_eq_ok] at h
  obtain ⟨lend, hlend, rfl⟩ := h
  exact ⟨lend, hlend, rfl⟩

theorem mint_ok {v : ℕ} (h : s.mint who asset n = .ok (v, s')) :
    ∃ minted minting, VtokenMinting.doMint s.mintingNow who asset n none =
        .ok (minted, v, minting) ∧
      s' = { s with minting := minting }.setLedger (cfg.view minting.ledger) := by
  simp only [State.mint, bind_eq_ok, mapErr_eq_ok, pure_eq_ok] at h
  obtain ⟨⟨minted, v', minting⟩, hmint, h⟩ := h
  obtain ⟨rfl, rfl⟩ := Prod.mk.inj h
  exact ⟨minted, minting, hmint, rfl⟩

theorem swap_ok {id i j dx least : ℕ} (h : s.swap who id i j dx least = .ok s') :
    ∃ pools L, cfg.swap s.pools s.ledger who id i j dx least = .ok (pools, L) ∧
      s' = { s with pools := pools }.setLedger L := by
  simp only [State.swap, bind_eq_ok, mapErr_eq_ok, pure_eq_ok] at h
  obtain ⟨⟨pools, L⟩, hswap, rfl⟩ := h
  exact ⟨pools, L, hswap, rfl⟩

theorem ensureCollateral_ok (h : s.ensureCollateral who vtoken = .ok s') :
    s' = s ∨ ∃ lend, LendMarket.doCollateralAsset s.lend who vtoken true = .ok lend ∧
      s' = { s with lend := lend } := by
  unfold State.ensureCollateral at h
  split at h
  · exact Or.inl (Except.ok.inj h).symm
  · exact Or.inr (withLend_ok h)

theorem figures_ok {f : Figures} (h : s.figures who asset vtoken = .ok (f, s')) :
    ∃ deposits worth lend, currentCollateralAmount s.lend who vtoken = .ok deposits ∧
      s.minting.getCurrencyAmountByVCurrencyAmount asset vtoken deposits = .ok worth ∧
      s.lend.accrueInterest asset = .ok lend ∧
      lend.currentBorrowBalance who asset = .ok f.accountBorrows ∧
      worth = f.baseTokenValue + f.accountBorrows ∧ 0 < f.baseTokenValue ∧
      f.currentRate.inner = f.accountBorrows * FixedU128.accuracy / f.baseTokenValue ∧
      s' = { s with lend := lend } := by
  simp only [State.figures, getCurrentBorrowBalance, FixedU128.checkedFromRational, bind_eq_ok,
    mapErr_eq_ok, okOr_eq_ok, pure_eq_ok, U128.checkedSub_eq_some, Option.map_eq_some_iff,
    U128.mulDiv_eq_some] at h
  obtain ⟨deposits, hdeposits, ⟨borrows, lend⟩, ⟨lend', hlend, borrows', hborrows, hpair⟩, worth,
    hworth, base, ⟨hle, rfl⟩, rate, ⟨_, ⟨hpos, rfl, -⟩, rfl⟩, h⟩ := h
  obtain ⟨rfl, rfl⟩ := Prod.mk.inj hpair
  obtain ⟨rfl, rfl⟩ := Prod.mk.inj h
  have hworth' : worth = worth - borrows' + borrows' := (Nat.sub_add_cancel hle).symm
  exact ⟨deposits, worth, lend', hdeposits, hworth, hlend, hborrows, hworth', hpos, rfl, rfl⟩

theorem increaseLeverage_ok (h : s.increaseLeverage who asset vtoken n = .ok s') :
    ∃ s₁ v s₂ lend₃ lend₄, s.mintInto asset who n = .ok s₁ ∧ s₁.mint who asset n = .ok (v, s₂) ∧
      LendMarket.doMint s₂.lend who vtoken v = .ok lend₃ ∧
      LendMarket.doBorrow lend₃ who asset n = .ok lend₄ ∧
      { s₂ with lend := lend₄ }.burnFrom asset who n = .ok s' := by
  simp only [State.increaseLeverage, bind_eq_ok] at h
  obtain ⟨s₁, h₁, ⟨v, s₂⟩, h₂, s₃, h₃, s₄, h₄, h₅⟩ := h
  obtain ⟨lend₃, hlend₃, rfl⟩ := withLend_ok h₃
  obtain ⟨lend₄, hlend₄, rfl⟩ := withLend_ok h₄
  exact ⟨s₁, v, s₂, lend₃, lend₄, h₁, h₂, hlend₃, hlend₄, h₅⟩

theorem reduceLeverage_ok (h : s.reduceLeverage who asset vtoken n = .ok s') :
    ∃ id i j s₁ lend₂ dx paid lend₃ s₄, cfg.getPoolId s.pools vtoken asset = some (id, i, j) ∧
      s.mintInto asset who n = .ok s₁ ∧
      LendMarket.doRepayBorrow s₁.lend who asset n = .ok lend₂ ∧
      cfg.getSwapInput s₁.pools id i j n = .ok dx ∧
      LendMarket.doRedeem lend₂ who vtoken dx = .ok (paid, lend₃) ∧
      { s₁ with lend := lend₃ }.swap who id i j dx n = .ok s₄ ∧
      s₄.burnFrom asset who n = .ok s' := by
  simp only [State.reduceLeverage, bind_eq_ok, okOr_eq_ok, mapErr_eq_ok] at h
  obtain ⟨⟨id, i, j⟩, hid, s₁, h₁, s₂, h₂, dx, hdx, s₃, h₃, s₄, h₄, h₅⟩ := h
  obtain ⟨lend₂, hlend₂, rfl⟩ := withLend_ok h₂
  obtain ⟨lend₃, hlend₃, rfl⟩ := withLend_ok h₃
  simp only [bind_eq_ok, pure_eq_ok] at hlend₃
  obtain ⟨⟨paid, lend⟩, hredeem, rfl⟩ := hlend₃
  exact ⟨id, i, j, s₁, lend₂, dx, paid, lend, s₄, hid, h₁, hlend₂, hdx, hredeem, h₄, h₅⟩

theorem setLeverage_ok {f : Figures} {rate : FixedU128}
    (h : s.setLeverage who asset vtoken f rate = .ok s') :
    (rate.inner < f.currentRate.inner ∧ ∃ amount, State.reduceAmount f rate = some amount ∧
        s.reduceLeverage who asset vtoken amount = .ok s') ∨
      (f.currentRate.inner < rate.inner ∧ ∃ amount, State.increaseAmount f rate = some amount ∧
        s.increaseLeverage who asset vtoken amount = .ok s') := by
  unfold State.setLeverage at h
  split at h
  · rename_i hlt
    simp only [bind_eq_ok, okOr_eq_ok] at h
    exact Or.inl ⟨Nat.compare_eq_lt.mp hlt, h⟩
  · cases h
  · rename_i hgt
    simp only [bind_eq_ok, okOr_eq_ok] at h
    exact Or.inr ⟨Nat.compare_eq_gt.mp hgt, h⟩

theorem flashLoanDeposit_ok {rate : FixedU128} (h : flashLoanDeposit s who asset rate = .ok s') :
    ∃ vtoken s₁ f s₂ s₃, convertToVtoken asset = some vtoken ∧
      s.ensureCollateral who vtoken = .ok s₁ ∧ s₁.figures who asset vtoken = .ok (f, s₂) ∧
      s₂.setLeverage who asset vtoken f rate = .ok s₃ ∧
      s' = s₃.depositEvent (.flashLoanDeposited who asset f.currentRate rate) := by
  simp only [flashLoanDeposit, bind_eq_ok, okOr_eq_ok, pure_eq_ok] at h
  obtain ⟨vtoken, hvtoken, s₁, h₁, ⟨f, s₂⟩, h₂, s₃, h₃, rfl⟩ := h
  exact ⟨vtoken, s₁, f, s₂, s₃, hvtoken, h₁, h₂, h₃, rfl⟩

/-! Balances. -/

/-- The balances of everybody but the caller, outside the pallets. -/
def OthersKept (s s' : State cfg) (who : AccountId) : Prop :=
  ∀ c x, x ≠ who → ¬cfg.Pooled x → s'.balance c x = s.balance c x

theorem OthersKept.trans (h : OthersKept s s₁ who) (h' : OthersKept s₁ s' who) :
    OthersKept s s' who := by
  intro c x hx hout
  exact (h' c x hx hout).trans (h c x hx hout)

theorem mintInto_balance (h : s.mintInto asset who n = .ok s') (c : CurrencyId) (x : AccountId) :
    s'.balance c x = s.balance c x + if c = asset ∧ x = who then n else 0 := by
  obtain ⟨L, hL, rfl⟩ := mintInto_ok h
  exact cfg.mintInto_credits hL c x

theorem burnFrom_balance (h : s.burnFrom asset who n = .ok s') (c : CurrencyId) (x : AccountId) :
    s'.balance c x + (if c = asset ∧ x = who then n else 0) = s.balance c x := by
  obtain ⟨L, hL, rfl⟩ := burnFrom_ok h
  exact cfg.burnFrom_debits hL c x

theorem mintInto_othersKept (h : s.mintInto asset who n = .ok s') : OthersKept s s' who := by
  intro c x hx _
  rw [mintInto_balance h, if_neg (fun hall => hx hall.2), Nat.add_zero]

theorem burnFrom_othersKept (h : s.burnFrom asset who n = .ok s') : OthersKept s s' who := by
  intro c x hx _
  rw [← burnFrom_balance h c x, if_neg (fun hall => hx hall.2), Nat.add_zero]

theorem balance_setLedger_view (s : State cfg) (L : cfg.minting.currency.Ledger) (c : CurrencyId)
    (x : AccountId) :
    (s.setLedger (cfg.view L)).balance c x = cfg.minting.currency.freeBalance L c x :=
  cfg.balance_view L c x

theorem freeBalance_mintingNow (s : State cfg) (c : CurrencyId) (x : AccountId) :
    cfg.minting.currency.freeBalance s.mintingNow.ledger c x = s.balance c x := by
  have hview := cfg.balance_view (cfg.view.symm s.ledger) c x
  rw [Equiv.apply_symm_apply] at hview
  exact hview.symm

theorem mint_balance {v : ℕ} (hwho : ¬cfg.Pooled who) (hasset : asset.isVtoken = false)
    (h : s.mint who asset n = .ok (v, s')) :
    s'.balance asset who + n = s.balance asset who ∧
      (∀ c x, c ≠ asset → x ≠ who → s'.balance c x = s.balance c x) ∧ OthersKept s s' who := by
  obtain ⟨minted, minting, hmint, rfl⟩ := mint_ok h
  obtain ⟨-, -, -, -, -, -, hv, -⟩ := VtokenMinting.doMint_ok hmint
  have hne : asset ≠ minted := by
    rintro rfl
    rw [hasset] at hv
    cases hv
  obtain ⟨kept, fee, L, L₁, L₂, hsum, hfee, hdeposit, hkept, hrecord⟩ :=
    VtokenMinting.doMint_tokens hmint
  have hlast := cfg.record_frame hrecord
  have hfeewho : who ≠ cfg.minting.feeAccount := fun heq => hwho (Or.inr (Or.inr (Or.inl heq)))
  have hentrance : who ≠ cfg.minting.entranceAccount := fun heq => hwho (Or.inr (Or.inl heq))
  refine ⟨?_, ?_, ?_⟩
  · rw [balance_setLedger_view, hlast, ← freeBalance_mintingNow]
    have hpaid := cfg.minting.currency.transfer_out hfee hfeewho asset
    have hbought := cfg.deposit_credits hdeposit asset who
    have hjoined := cfg.minting.currency.transfer_out hkept hentrance asset
    rw [if_pos rfl] at hpaid hjoined
    rw [if_neg (fun hall => hne hall.1)] at hbought
    omega
  · intro c x hc hx
    rw [balance_setLedger_view, hlast, ← freeBalance_mintingNow,
      cfg.minting.currency.transfer_frame hkept (Or.inr (Or.inl hc)),
      cfg.deposit_credits hdeposit c x, if_neg (fun hall => hx hall.2), Nat.add_zero,
      cfg.minting.currency.transfer_frame hfee (Or.inr (Or.inl hc))]
  · intro c x hx hout
    have hxfee : x ≠ cfg.minting.feeAccount := fun heq => hout (Or.inr (Or.inr (Or.inl heq)))
    have hxentrance : x ≠ cfg.minting.entranceAccount := fun heq => hout (Or.inr (Or.inl heq))
    rw [balance_setLedger_view, hlast, ← freeBalance_mintingNow,
      cfg.minting.currency.transfer_frame hkept (Or.inr (Or.inr ⟨hx, hxentrance⟩)),
      cfg.deposit_credits hdeposit c x, if_neg (fun hall => hx hall.2), Nat.add_zero,
      cfg.minting.currency.transfer_frame hfee (Or.inr (Or.inr ⟨hx, hxfee⟩))]

theorem lend_othersKept {lend : LendMarket.State cfg.lend} {a b : AccountId}
    (h : cfg.lend.assets.transfer s.ledger c a b n .expendable = .ok lend.ledger)
    (hends : (a = who ∧ b = cfg.lend.accountId) ∨ (a = cfg.lend.accountId ∧ b = who)) :
    OthersKept s { s with lend := lend } who := by
  intro d x hx hout
  have hlend : x ≠ cfg.lend.accountId := fun heq => hout (Or.inl heq)
  have hdust : cfg.lend.assets.dustAccount ≠ some x :=
    fun heq => hout (Or.inr (Or.inr (Or.inr (Or.inr heq))))
  apply cfg.lend.assets.transfer_frame h
  rcases hends with ⟨rfl, rfl⟩ | ⟨rfl, rfl⟩
  · exact Or.inr (Or.inr ⟨hx, hlend, hdust⟩)
  · exact Or.inr (Or.inr ⟨hlend, hx, hdust⟩)

theorem lend_balance_ne {lend : LendMarket.State cfg.lend} {a b : AccountId}
    (h : cfg.lend.assets.transfer s.ledger c a b n .expendable = .ok lend.ledger)
    (hc : asset ≠ c) (x : AccountId) :
    State.balance { s with lend := lend } asset x = s.balance asset x :=
  cfg.lend.assets.transfer_frame h (Or.inr (Or.inl hc))

theorem swap_othersKept {id i j dx least : ℕ} (h : s.swap who id i j dx least = .ok s') :
    OthersKept s s' who := by
  obtain ⟨pools, L, hswap, rfl⟩ := swap_ok h
  intro c x hx hout
  exact cfg.swap_frame hswap c x hx fun hpool => hout (Or.inr (Or.inr (Or.inr (Or.inl hpool))))

/-- The same amount is minted first and burned last. -/
def Loaned (s s' : State cfg) (who : AccountId) (asset : CurrencyId) (amount : ℕ) : Prop :=
  ∃ L L', cfg.mintInto s.ledger asset who amount = .ok L ∧
    cfg.burnFrom L' asset who amount = .ok s'.ledger

theorem loaned {t : State cfg} (h : s.mintInto asset who n = .ok s₁)
    (h' : t.burnFrom asset who n = .ok s') : Loaned s s' who asset n := by
  obtain ⟨L, hL, -⟩ := mintInto_ok h
  obtain ⟨L', hL', rfl⟩ := burnFrom_ok h'
  exact ⟨L, t.ledger, hL, hL'⟩

theorem increaseLeverage_loaned (h : s.increaseLeverage who asset vtoken n = .ok s') :
    Loaned s s' who asset n := by
  obtain ⟨_, _, _, _, _, h₁, -, -, -, h₅⟩ := increaseLeverage_ok h
  exact loaned h₁ h₅

theorem reduceLeverage_loaned (h : s.reduceLeverage who asset vtoken n = .ok s') :
    Loaned s s' who asset n := by
  obtain ⟨_, _, _, _, _, _, _, _, _, -, h₁, -, -, -, -, h₅⟩ := reduceLeverage_ok h
  exact loaned h₁ h₅

theorem isVtoken_of_convertToVtoken (h : convertToVtoken asset = some vtoken) :
    asset.isVtoken = false := by
  cases asset <;> first | rfl | cases h

theorem increaseLeverage_balance (hwho : ¬cfg.Pooled who)
    (hvtoken : convertToVtoken asset = some vtoken)
    (h : s.increaseLeverage who asset vtoken n = .ok s') :
    s'.balance asset who = s.balance asset who ∧ OthersKept s s' who := by
  obtain ⟨s₁, v, s₂, lend₃, lend₄, h₁, h₂, h₃, h₄, h₅⟩ := increaseLeverage_ok h
  have hne : asset ≠ vtoken := (convertToVtoken_ne hvtoken).symm
  have hlend : cfg.lend.accountId ≠ who := fun heq => hwho (Or.inl heq.symm)
  have hdust : cfg.lend.assets.dustAccount ≠ some who :=
    fun heq => hwho (Or.inr (Or.inr (Or.inr (Or.inr heq))))
  obtain ⟨hspent, -, hothers⟩ := mint_balance hwho (isVtoken_of_convertToVtoken hvtoken) h₂
  have hdeposited := LendMarket.doMint_transfer h₃
  have hborrowed := LendMarket.doBorrow_transfer h₄
  constructor
  · have hflash := mintInto_balance h₁ asset who
    have hsame := lend_balance_ne (s := s₂) hdeposited hne who
    have hlent := cfg.lend.assets.transfer_credits hborrowed hlend hdust
    have hlent' : State.balance { s₂ with lend := lend₄ } asset who =
      State.balance { s₂ with lend := lend₃ } asset who + n := hlent
    have hburned := burnFrom_balance h₅ asset who
    rw [if_pos ⟨rfl, rfl⟩] at hflash hburned
    omega
  · have hdeposit : OthersKept s₂ { s₂ with lend := lend₃ } who :=
      lend_othersKept hdeposited (Or.inl ⟨rfl, rfl⟩)
    have hborrow : OthersKept { s₂ with lend := lend₃ } { s₂ with lend := lend₄ } who :=
      lend_othersKept hborrowed (Or.inr ⟨rfl, rfl⟩)
    exact ((((mintInto_othersKept h₁).trans hothers).trans hdeposit).trans hborrow).trans
      (burnFrom_othersKept h₅)

theorem reduceLeverage_balance (hwho : ¬cfg.Pooled who)
    (hvtoken : convertToVtoken asset = some vtoken)
    (h : s.reduceLeverage who asset vtoken n = .ok s') :
    s.balance asset who ≤ s'.balance asset who ∧ OthersKept s s' who := by
  obtain ⟨id, i, j, s₁, lend₂, dx, paid, lend₃, s₄, hid, h₁, h₂, -, h₃, h₄, h₅⟩ :=
    reduceLeverage_ok h
  have hne : asset ≠ vtoken := (convertToVtoken_ne hvtoken).symm
  have hlend : who ≠ cfg.lend.accountId := fun heq => hwho (Or.inl heq)
  have hrepaid := LendMarket.doRepayBorrow_transfer h₂
  have hredeemed := LendMarket.doRedeem_transfer h₃
  constructor
  · have hflash := mintInto_balance h₁ asset who
    rw [if_pos ⟨rfl, rfl⟩] at hflash
    -- the caller had nothing, or enough to be kept
    have hnodust : cfg.lend.assets.NoDust s₁.ledger asset who n := by
      have halive := cfg.alive s.ledger asset who
      have hbefore : cfg.lend.assets.balance s₁.ledger asset who =
        cfg.lend.assets.balance s.ledger asset who + n := hflash
      unfold Fungibles.NoDust
      omega
    have hpaid := Fungibles.transfer_out hrepaid hlend hnodust
    have hpaid' : State.balance { s₁ with lend := lend₂ } asset who + n =
      s₁.balance asset who := hpaid
    have hsame := lend_balance_ne (s := { s₁ with lend := lend₂ }) hredeemed hne who
    obtain ⟨pools, L, hswap, rfl⟩ := swap_ok h₄
    obtain ⟨L₁, -, hs₁⟩ := mintInto_ok h₁
    have hid₁ : cfg.getPoolId s₁.pools vtoken asset = some (id, i, j) := by
      rw [hs₁]
      exact hid
    have hbought := cfg.swap_pays hid₁ hswap
    have hbought' : State.balance { s₁ with lend := lend₃ } asset who + n ≤
      State.balance (State.setLedger { s₁ with lend := lend₃, pools := pools } L) asset who :=
        hbought
    have hburned := burnFrom_balance h₅ asset who
    rw [if_pos ⟨rfl, rfl⟩] at hburned
    have hburned' : s'.balance asset who + n =
      State.balance (State.setLedger { s₁ with lend := lend₃, pools := pools } L) asset who :=
        hburned
    have hsame' : State.balance { s₁ with lend := lend₃ } asset who =
      State.balance { s₁ with lend := lend₂ } asset who := hsame
    omega
  · have hrepay : OthersKept s₁ { s₁ with lend := lend₂ } who :=
      lend_othersKept hrepaid (Or.inl ⟨rfl, rfl⟩)
    have hredeem : OthersKept { s₁ with lend := lend₂ } { s₁ with lend := lend₃ } who :=
      lend_othersKept hredeemed (Or.inr ⟨rfl, rfl⟩)
    exact ((((mintInto_othersKept h₁).trans hrepay).trans hredeem).trans
      (swap_othersKept h₄)).trans (burnFrom_othersKept h₅)

end Bifrost.LeverageStaking
