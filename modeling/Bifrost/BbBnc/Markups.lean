import Bifrost.BbBnc.Locks

/-!
# The books of the markups

The tokens that accounts lock for a markup, their total, the coefficients they add up to and the
locks on the accounts. Only the markup calls write them, one token at a time.
-/

namespace Bifrost.BbBnc

open Result Machine
set_option autoImplicit false

variable {AccountId : Type} [DecidableEq AccountId] {cfg : Config AccountId}
  {s s' s₁ : State cfg} {who w : AccountId} {p : ℕ} {currency : CurrencyId}
  {token : Option LockedToken}

def amountOf (token : Option LockedToken) : ℕ := token.elim 0 LockedToken.amount

def markupOf (token : Option LockedToken) : ℕ := token.elim 0 fun t => t.markupCoefficient.inner

/-! Calls that do not mark. -/

/-- The books of the markups stay, and what covers a lock still does. -/
structure MarkupKept (s s' : State cfg) : Prop where
  tokens : s'.lockedTokens = s.lockedTokens
  total : s'.totalLock = s.totalLock
  infos : s'.userMarkupInfos = s.userMarkupInfos
  coefficients : s'.markupCoefficient = s.markupCoefficient
  lock : ∀ c w, cfg.currencies.lock s'.ledger .markupLockId c w =
    cfg.currencies.lock s.ledger .markupLockId c w
  covers : ∀ c w, cfg.currencies.lock s.ledger .markupLockId c w ≤
      cfg.currencies.freeBalance s.ledger c w →
    cfg.currencies.lock s'.ledger .markupLockId c w ≤ cfg.currencies.freeBalance s'.ledger c w

theorem MarkupKept.trans (h : MarkupKept s s₁) (h' : MarkupKept s₁ s') : MarkupKept s s' :=
  ⟨h'.tokens.trans h.tokens, h'.total.trans h.total, h'.infos.trans h.infos,
    h'.coefficients.trans h.coefficients, fun c w => (h'.lock c w).trans (h.lock c w),
    fun c w hle => h'.covers c w (h.covers c w hle)⟩

theorem RewardCall.markupKept (h : RewardCall s s') : MarkupKept s s' := by
  obtain ⟨_, _, _, _, _, _, hmoves, rfl⟩ := h
  exact ⟨rfl, rfl, rfl, rfl, fun c w => congrFun (congrFun (congrFun hmoves.lock_eq _) c) w,
    fun c w hle => hmoves.covers _ c w hle⟩

theorem RecordsOnly.markupKept (h : RecordsOnly s s') : MarkupKept s s' := by
  obtain ⟨_, ⟨_, _, _, _, rfl⟩, _, _, _, _, _, rfl⟩ := h
  exact ⟨rfl, rfl, rfl, rfl, fun _ _ => rfl, fun _ _ h => h⟩

theorem LocksSet.markupKept {n supply : ℕ} {ledger : cfg.currencies.Ledger}
    {userLocked : AccountId → ℕ} {locked : ℕ → LockedBalance} (h : LocksSet s who n ledger) :
    MarkupKept s { s with
      supply := supply, ledger := ledger, userLocked := userLocked, locked := locked } := by
  have hlock : ∀ c w, cfg.currencies.lock ledger .markupLockId c w =
      cfg.currencies.lock s.ledger .markupLockId c w := by
    intro c w
    rw [h.2, if_neg (by simp)]
  refine ⟨rfl, rfl, rfl, rfl, hlock, fun c w hle => ?_⟩
  change cfg.currencies.lock ledger .markupLockId c w ≤ cfg.currencies.freeBalance ledger c w
  rw [hlock, h.1]
  exact hle

theorem deposits_markupKept {value : ℕ} {old new : LockedBalance}
    (h : Deposits s who p value old new s') : MarkupKept s s' := by
  obtain ⟨-, ledger, s₁, -, hzero, hset, hmark, houtside⟩ := h
  have hmore : MarkupKept s (s.lockMore who p value new ledger) := by
    by_cases hvalue : value = 0
    · rw [hzero hvalue]
      exact ⟨rfl, rfl, rfl, rfl, fun _ _ => rfl, fun _ _ h => h⟩
    · exact (hset hvalue).markupKept
  exact (hmore.trans (markupCalc_recordsOnly hmark).markupKept).trans houtside.rewardCall.markupKept

theorem withdrawNoEnsure_markupKept {locked : LockedBalance} {ifFast : Option FixedU128}
    (h : withdrawNoEnsure s who p locked ifFast = .ok s') : MarkupKept s s' := by
  obtain ⟨-, -, ledger, s₁, s₂, s₃, hset, hpay, hcheck, hrefresh, hremove⟩ := withdrawNoEnsure_ok h
  have hless : MarkupKept s (s.lockLess who p locked.amount ledger) := hset.markupKept
  have h₂ := (hless.trans hpay.rewardCall.markupKept).trans (checkpoint_recordsOnly hcheck).markupKept
  have h₃ := h₂.trans (refreshGaugePool_outsideOnly hrefresh).rewardCall.markupKept
  obtain ⟨-, rfl⟩ := removePosition_ok hremove
  exact h₃.trans ⟨rfl, rfl, rfl, rfl, fun _ _ => rfl, fun _ _ h => h⟩

theorem keptBySweep_markupKept (s : State cfg) : KeptBySweep (MarkupKept s) where
  withdraw := fun hs _ _ _ h => hs.trans (withdrawNoEnsure_markupKept h)
  schedule := fun _ _ hs => hs.trans ⟨rfl, rfl, rfl, rfl, fun _ _ => rfl, fun _ _ h => h⟩

theorem step_markupKept {c : Call cfg} (hmarks : ¬ c.Marks) (h : step s c = .ok s') :
    MarkupKept s s' := by
  by_cases hc : c.MovesLocks
  · cases c <;> simp only [Call.MovesLocks] at hc
    case createLock who value time =>
      obtain ⟨endBlock, -, hdeposit⟩ := createLockInner_ok h
      refine MarkupKept.trans ?_ (deposits_markupKept hdeposit)
      exact ⟨rfl, rfl, rfl, rfl, fun _ _ => rfl, fun _ _ h => h⟩
    case increaseAmount who p value =>
      exact deposits_markupKept (increaseAmountInner_ok (ownPosition_ok h).2).2.2
    case increaseUnlockTime who p time =>
      obtain ⟨endBlock, -, -, -, -, hdeposit⟩ := increaseUnlockTimeInner_ok (ownPosition_ok h).2
      refine MarkupKept.trans ?_ (deposits_markupKept hdeposit)
      exact ⟨rfl, rfl, rfl, rfl, fun _ _ => rfl, fun _ _ h => h⟩
    case withdraw who p =>
      refine MarkupKept.trans ?_ (withdrawNoEnsure_markupKept
        (withdrawInner_ok (ownPosition_ok h).2).2)
      exact ⟨rfl, rfl, rfl, rfl, fun _ _ => rfl, fun _ _ h => h⟩
    case redeemUnlock who p =>
      obtain ⟨-, fast, h⟩ := redeemUnlockInner_ok (ownPosition_ok h).2
      refine MarkupKept.trans ?_ (withdrawNoEnsure_markupKept h)
      exact ⟨rfl, rfl, rfl, rfl, fun _ _ => rfl, fun _ _ h => h⟩
    case onInitialize =>
      cases h
      apply (keptBySweep_markupKept s).withdrawExpired
      refine MarkupKept.trans ?_ (notifyOnBlock_rewardCall _).markupKept
      exact ⟨rfl, rfl, rfl, rfl, fun _ _ => rfl, fun _ _ h => h⟩
  · obtain ⟨_, hcall⟩ := step_rewards hc hmarks h
    refine MarkupKept.trans ?_ hcall.markupKept
    exact ⟨rfl, rfl, rfl, rfl, fun _ _ => rfl, fun _ _ h => h⟩

/-! One token is written. -/

theorem newMarkup_le {info : MarkupCoefficientInfo} {amount total issuance : ℕ} {new : FixedU128}
    (h : newMarkup info amount total issuance = .ok new) : new.inner ≤ info.hardcap.inner := by
  simp only [newMarkup, bind_eq_ok, pure_eq_ok] at h
  obtain ⟨ri, -, left, -, ni, -, right, -, b, -, rfl⟩ := h
  exact Nat.min_le_left _ _

structure TokenWritten (s : State cfg) (currency : CurrencyId) (w : AccountId)
    (token : Option LockedToken) (s' : State cfg) : Prop where
  tokens : s'.lockedTokens = Function.update s.lockedTokens currency
    ((s.lockedTokens currency).write w token)
  total : s'.totalLock currency + amountOf ((s.lockedTokens currency).get w) =
    s.totalLock currency + amountOf token
  totals : ∀ d, d ≠ currency → s'.totalLock d = s.totalLock d
  coefficient : (s.coefficientOf w).inner - markupOf ((s.lockedTokens currency).get w) +
      markupOf token ≤ u128Max → (s'.coefficientOf w).inner =
    (s.coefficientOf w).inner - markupOf ((s.lockedTokens currency).get w) + markupOf token
  others : ∀ v, v ≠ w → s'.coefficientOf v = s.coefficientOf v
  hardcaps : ∀ d, (s'.markupCoefficient d).map MarkupCoefficientInfo.hardcap =
    (s.markupCoefficient d).map MarkupCoefficientInfo.hardcap
  capped : ∀ t, token = some t → ∃ info, s.markupCoefficient currency = some info ∧
    t.markupCoefficient.inner ≤ info.hardcap.inner
  free : cfg.currencies.freeBalance s'.ledger = cfg.currencies.freeBalance s.ledger
  lock : ∀ d v, cfg.currencies.lock s.ledger .markupLockId d v =
      amountOf ((s.lockedTokens d).get v) →
    cfg.currencies.lock s'.ledger .markupLockId d v = amountOf ((s'.lockedTokens d).get v)

theorem TokenWritten.get (h : TokenWritten s currency w token s')
    (d : CurrencyId) (v : AccountId) : (s'.lockedTokens d).get v =
      if d = currency ∧ v = w then token else (s.lockedTokens d).get v := by
  rw [h.tokens]
  by_cases hd : d = currency
  · subst d
    rw [Function.update_self, Table.get_write]
    simp
  · rw [Function.update_of_ne hd, if_neg (by tauto)]

def Totals (s : State cfg) : Prop :=
  ∀ c, s.totalLock c = Table.sum (fun _ t => t.amount) (s.lockedTokens c)

theorem TokenWritten.keeps_totals
    (h : TokenWritten s currency w token s') (hs : Totals s) : Totals s' := by
  intro d
  rw [h.tokens]
  by_cases hd : d = currency
  · subst d
    have hsum := Table.sum_write (fun _ t => t.amount) (s.lockedTokens currency) w token
    have htotal := h.total
    have hold := hs currency
    have hweight : ∀ o : Option LockedToken,
        Table.weight (fun (_ : AccountId) t => t.amount) w o = amountOf o := fun _ => rfl
    rw [hweight, hweight] at hsum
    rw [Function.update_self]
    omega
  · rw [Function.update_of_ne hd, h.totals d hd]
    exact hs d

theorem Totals.amount_le (hs : Totals s) (c : CurrencyId) (w : AccountId) :
    amountOf ((s.lockedTokens c).get w) ≤ s.totalLock c := by
  rw [hs c]
  cases hget : (s.lockedTokens c).get w with
  | none => exact Nat.zero_le _
  | some t => exact Table.le_sum (fun _ t => t.amount) hget

/-- What the markup calls share: the token is written, and then the positions are marked anew. -/
theorem remarked_written {total : ℕ} {ledger : cfg.currencies.Ledger} {info info' : UserMarkupInfo}
    (hmark : remarkPositions (s.remarked currency w token total ledger info) w info' = .ok s')
    (htotal : total + amountOf ((s.lockedTokens currency).get w) =
      s.totalLock currency + amountOf token)
    (hinfo : (s.coefficientOf w).inner - markupOf ((s.lockedTokens currency).get w) +
        markupOf token ≤ u128Max → info.markupCoefficient.inner =
      (s.coefficientOf w).inner - markupOf ((s.lockedTokens currency).get w) + markupOf token)
    (hcapped : ∀ t, token = some t → ∃ info, s.markupCoefficient currency = some info ∧
      t.markupCoefficient.inner ≤ info.hardcap.inner)
    (hfree : cfg.currencies.freeBalance ledger = cfg.currencies.freeBalance s.ledger)
    (hlock : ∀ d v, cfg.currencies.lock s.ledger .markupLockId d v =
        amountOf ((s.lockedTokens d).get v) → cfg.currencies.lock ledger .markupLockId d v =
      if d = currency ∧ v = w then amountOf token else amountOf ((s.lockedTokens d).get v)) :
    TokenWritten s currency w token s' := by
  have hkept := (remarkPositions_recordsOnly hmark).markupKept
  have htokens : s'.lockedTokens = Function.update s.lockedTokens currency
    ((s.lockedTokens currency).write w token) := hkept.tokens
  have htotals : s'.totalLock = Function.update s.totalLock currency total := hkept.total
  have hinfos : s'.userMarkupInfos = Function.update s.userMarkupInfos w (some info) := hkept.infos
  have hledger : s'.ledger = ledger := by
    obtain ⟨_, ⟨_, _, _, _, rfl⟩, _, _, _, _, _, rfl⟩ := remarkPositions_recordsOnly hmark
    rfl
  have hget : ∀ d v, (s'.lockedTokens d).get v =
      if d = currency ∧ v = w then token else (s.lockedTokens d).get v := by
    intro d v
    rw [htokens]
    by_cases hd : d = currency
    · subst d
      rw [Function.update_self, Table.get_write]
      simp
    · rw [Function.update_of_ne hd, if_neg (by tauto)]
  refine ⟨htokens, ?_, fun d hd => ?_, fun hfits => ?_, fun v hv => ?_, fun d => ?_, hcapped, ?_,
    fun d v hold => ?_⟩
  · rw [htotals, Function.update_self]
    exact htotal
  · rw [htotals, Function.update_of_ne hd]
  · unfold State.coefficientOf
    rw [hinfos, Function.update_self]
    exact hinfo hfits
  · unfold State.coefficientOf
    rw [hinfos, Function.update_of_ne hv]
  · rw [hkept.coefficients]
    rfl
  · rw [hledger]
    exact hfree
  · rw [hledger, hlock d v hold, hget]
    split <;> rfl

theorem amountOf_get (s : State cfg) (c : CurrencyId) (w : AccountId) :
    (s.lockedToken c w).amount = amountOf ((s.lockedTokens c).get w) := by
  unfold State.lockedToken
  cases (s.lockedTokens c).get w <;> rfl

theorem markupOf_get (s : State cfg) (c : CurrencyId) (w : AccountId) :
    (s.lockedToken c w).markupCoefficient.inner = markupOf ((s.lockedTokens c).get w) := by
  unfold State.lockedToken
  cases (s.lockedTokens c).get w <;> rfl

theorem exchangeCoefficient_eq {coefficient old new : FixedU128}
    (h : coefficient.inner - old.inner + new.inner ≤ u128Max) :
    (exchangeCoefficient coefficient old new).inner =
      coefficient.inner - old.inner + new.inner :=
  Nat.min_eq_left h

theorem touched_hardcaps {coefficient : MarkupCoefficientInfo}
    (h : (s.markupCoefficient currency).map MarkupCoefficientInfo.hardcap =
      some coefficient.hardcap) (d : CurrencyId) :
    ((s.touched currency coefficient).markupCoefficient d).map MarkupCoefficientInfo.hardcap =
      (s.markupCoefficient d).map MarkupCoefficientInfo.hardcap := by
  have htouched : (s.touched currency coefficient).markupCoefficient = Function.update
    s.markupCoefficient currency (some { coefficient with updateBlock := s.blockNumber }) := rfl
  rw [htouched]
  by_cases hd : d = currency
  · subst d
    rw [Function.update_self, h]
    rfl
  · rw [Function.update_of_ne hd]

theorem depositMarkup_written {value : ℕ} (hs : Totals s)
    (h : depositMarkupInner s who currency value = .ok s') :
    ∃ token, amountOf (some token) = amountOf ((s.lockedTokens currency).get who) + value ∧
      TokenWritten s currency who (some token) s' := by
  obtain ⟨coefficient, new, ledger, s₁, hcoefficient, hvalue, htotal, hnew, hset, hmark, rfl⟩ :=
    depositMarkupInner_ok h
  have hle := hs.amount_le currency who
  have hamount : U128.saturatingAdd (s.lockedToken currency who).amount value =
      amountOf ((s.lockedTokens currency).get who) + value := by
    rw [amountOf_get]
    exact Nat.min_eq_left ((Nat.add_le_add_right hle value).trans htotal)
  have hpos : U128.saturatingAdd (s.lockedToken currency who).amount value ≠ 0 := by
    rw [hamount]
    exact Nat.ne_of_gt (Nat.add_pos_right _ (Nat.pos_of_ne_zero hvalue))
  refine ⟨⟨U128.saturatingAdd (s.lockedToken currency who).amount value, new, s.blockNumber⟩,
    hamount, ?_⟩
  have hwritten : TokenWritten s currency who (some
      ⟨U128.saturatingAdd (s.lockedToken currency who).amount value, new, s.blockNumber⟩) s₁ := by
    refine remarked_written hmark ?_ (fun hfits => ?_) ?_ (cfg.currencies.setLock_free hset) ?_
    · change _ = _ + U128.saturatingAdd (s.lockedToken currency who).amount value
      rw [hamount]
      omega
    · rw [← markupOf_get] at hfits ⊢
      exact exchangeCoefficient_eq hfits
    · intro token htoken
      rw [Option.some_inj] at htoken
      subst htoken
      exact ⟨coefficient, hcoefficient, newMarkup_le hnew⟩
    · intro d v hold
      rw [cfg.currencies.setLock_lock hset hpos, hold]
      by_cases hdv : d = currency ∧ v = who
      · rw [if_pos ⟨rfl, hdv⟩, if_pos hdv]
        rfl
      · rw [if_neg (fun hand => hdv hand.2), if_neg hdv]
  have hcap : (s₁.markupCoefficient currency).map MarkupCoefficientInfo.hardcap =
      some coefficient.hardcap := by
    rw [hwritten.hardcaps, hcoefficient]
    rfl
  exact ⟨hwritten.tokens, hwritten.total, hwritten.totals, hwritten.coefficient, hwritten.others,
    fun d => (touched_hardcaps hcap d).trans (hwritten.hardcaps d), hwritten.capped,
    hwritten.free, hwritten.lock⟩

theorem withdrawMarkup_written (h : withdrawMarkupInner s who currency = .ok s') :
    TokenWritten s currency who none s' := by
  obtain ⟨coefficient, token, ledger, hcoefficient, htoken, hle, hremove, hmark⟩ :=
    withdrawMarkupInner_ok h
  have hcap : (s.markupCoefficient currency).map MarkupCoefficientInfo.hardcap =
      some coefficient.hardcap := by
    rw [hcoefficient]
    rfl
  have hwritten : TokenWritten (s.touched currency coefficient) currency who none s' := by
    refine remarked_written hmark ?_ (fun _ => ?_) (fun t ht => by contradiction)
      (cfg.currencies.removeLock_free hremove) ?_
    · change s.totalLock currency - token.amount + amountOf ((s.lockedTokens currency).get who) =
        s.totalLock currency + 0
      rw [htoken]
      exact Nat.sub_add_cancel hle
    · change (s.coefficientOf who).inner - token.markupCoefficient.inner =
        (s.coefficientOf who).inner - markupOf ((s.lockedTokens currency).get who) + 0
      rw [htoken]
      rfl
    · intro d v hold
      rw [cfg.currencies.removeLock_lock hremove]
      by_cases hdv : d = currency ∧ v = who
      · rw [if_pos ⟨rfl, hdv⟩, if_pos hdv]
        rfl
      · rw [if_neg (fun hand => hdv hand.2), if_neg hdv]
        exact hold
  exact ⟨hwritten.tokens, hwritten.total, hwritten.totals, hwritten.coefficient, hwritten.others,
    fun d => (hwritten.hardcaps d).trans (touched_hardcaps hcap d), fun t ht => by contradiction,
    hwritten.free, hwritten.lock⟩

theorem refreshAccount_written {coefficient : MarkupCoefficientInfo}
    {e : AccountId × LockedToken}
    (hcap : (s.markupCoefficient currency).map MarkupCoefficientInfo.hardcap =
      some coefficient.hardcap)
    (htoken : (s.lockedTokens currency).get e.1 = some e.2)
    (h : refreshAccount currency coefficient s e = .ok s') :
    ∃ token, token.amount = e.2.amount ∧ TokenWritten s currency e.1 (some token) s' := by
  obtain ⟨info, new, -, hnew, hmark⟩ := refreshAccount_ok h
  refine ⟨⟨e.2.amount, new, s.blockNumber⟩, rfl, ?_⟩
  refine remarked_written hmark ?_ (fun hfits => ?_) ?_ rfl ?_
  · rw [htoken]
    rfl
  · rw [htoken] at hfits ⊢
    exact exchangeCoefficient_eq hfits
  · intro token ht
    rw [Option.some_inj] at ht
    subst ht
    obtain ⟨info, hinfo, heq⟩ := Option.map_eq_some_iff.mp hcap
    exact ⟨info, hinfo, heq ▸ newMarkup_le hnew⟩
  · intro d v hold
    rw [hold]
    by_cases hdv : d = currency ∧ v = e.1
    · obtain ⟨rfl, rfl⟩ := hdv
      rw [if_pos ⟨rfl, rfl⟩, htoken]
      rfl
    · rw [if_neg hdv]

/-! A refresh, one account after the other. -/

theorem dueTokens_get {coefficient : MarkupCoefficientInfo} {e : AccountId × LockedToken}
    (he : e ∈ dueTokens s currency coefficient) : (s.lockedTokens currency).get e.1 = some e.2 := by
  unfold dueTokens at he
  obtain ⟨v, -, hv⟩ := List.mem_filterMap.mp (List.mem_of_mem_take he)
  obtain ⟨token, htoken, hdue⟩ := Option.bind_eq_some_iff.mp hv
  split at hdue
  · rw [Option.some_inj] at hdue
    subst hdue
    exact htoken
  · contradiction

theorem dueTokens_nodup (s : State cfg) (currency : CurrencyId)
    (coefficient : MarkupCoefficientInfo) :
    ((dueTokens s currency coefficient).map Prod.fst).Nodup := by
  have hkeys : (cfg.accountOrder.arrange (s.lockedTokens currency).keys).Nodup :=
    (cfg.accountOrder.perm _).nodup_iff.mpr (s.lockedTokens currency).keys_nodup
  unfold dueTokens
  rw [List.map_take, List.map_filterMap]
  refine List.Nodup.sublist (List.take_sublist _ _) (hkeys.filterMap ?_)
  have hfst : ∀ v b, b ∈ Option.map Prod.fst (((s.lockedTokens currency).get v).bind fun token =>
      if token.refreshBlock ≤ coefficient.updateBlock then some (v, token) else none) → b = v := by
    intro v b hb
    obtain ⟨e, he, rfl⟩ := Option.map_eq_some_iff.mp hb
    obtain ⟨token, -, hdue⟩ := Option.bind_eq_some_iff.mp he
    split at hdue
    · rw [Option.some_inj] at hdue
      rw [← hdue]
    · contradiction
  intro v v' b hb hb'
  exact (hfst v b hb).symm.trans (hfst v' b hb')

theorem refreshInner_written {I : State cfg → Prop} (hs : I s)
    (hI : ∀ t t' v token, I t → t.coefficientOf v = s.coefficientOf v →
      (t.lockedTokens currency).get v = (s.lockedTokens currency).get v →
      (s.lockedTokens currency).get v ≠ none →
      amountOf (some token) = amountOf ((s.lockedTokens currency).get v) →
      (t.markupCoefficient currency).map MarkupCoefficientInfo.hardcap =
        (s.markupCoefficient currency).map MarkupCoefficientInfo.hardcap →
      TokenWritten t currency v (some token) t' → I t')
    (h : refreshInner s currency = .ok s') : I s' := by
  obtain ⟨coefficient, hcoefficient, hfold⟩ := refreshInner_ok h
  have hfold' : ∀ (accounts : List (AccountId × LockedToken)) (t : State cfg),
      (accounts.map Prod.fst).Nodup → I t →
      (∀ e ∈ accounts, t.coefficientOf e.1 = s.coefficientOf e.1 ∧
        (t.lockedTokens currency).get e.1 = (s.lockedTokens currency).get e.1 ∧
        (s.lockedTokens currency).get e.1 = some e.2) →
      (t.markupCoefficient currency).map MarkupCoefficientInfo.hardcap =
        (s.markupCoefficient currency).map MarkupCoefficientInfo.hardcap →
      accounts.foldlM (refreshAccount currency coefficient) t = .ok s' → I s' := by
    intro accounts
    induction accounts with
    | nil =>
      intro t _ ht _ _ hnil
      rw [List.foldlM_nil, pure_eq_ok] at hnil
      exact hnil ▸ ht
    | cons e accounts ih =>
      intro t hnodup ht hsame hcap hcons
      obtain ⟨he, haccounts⟩ := List.nodup_cons.mp hnodup
      rw [List.foldlM_cons, bind_eq_ok] at hcons
      obtain ⟨t₁, haccount, hrest⟩ := hcons
      obtain ⟨hcoef, htoken, hget⟩ := hsame e List.mem_cons_self
      have hcap' := hcap
      rw [hcoefficient] at hcap'
      obtain ⟨token, hamount, hwritten⟩ :=
        refreshAccount_written hcap' (htoken.trans hget) haccount
      have hkept : amountOf (some token) = amountOf ((s.lockedTokens currency).get e.1) := by
        rw [hget]
        exact hamount
      refine ih t₁ haccounts (hI t t₁ e.1 token ht hcoef htoken ?_ hkept hcap hwritten) ?_
        ((hwritten.hardcaps currency).trans hcap) hrest
      · rw [hget]
        exact Option.some_ne_none _
      · intro e' he'
        have hne : e'.1 ≠ e.1 := by
          intro heq
          exact he (List.mem_map.mpr ⟨e', he', heq⟩)
        obtain ⟨hcoef', htoken', hget'⟩ := hsame e' (List.mem_cons_of_mem e he')
        refine ⟨(hwritten.others e'.1 hne).trans hcoef', ?_, hget'⟩
        rw [hwritten.get, if_neg (fun hand => hne hand.2)]
        exact htoken'
  exact hfold' _ s (dueTokens_nodup s currency coefficient) hs
    (fun e he => ⟨rfl, rfl, dueTokens_get he⟩) rfl hfold

/-! The total locks. -/

theorem Totals.of_kept (hs : Totals s) (h : MarkupKept s s') : Totals s' := by
  unfold Totals
  rw [h.total, h.tokens]
  exact hs

theorem step_totals {c : Call cfg} (hs : Totals s) (h : step s c = .ok s') : Totals s' := by
  by_cases hc : c.Marks
  · cases c <;> simp only [Call.Marks] at hc
    case setMarkupCoefficient =>
      cases h
      exact hs
    case depositMarkup =>
      obtain ⟨token, -, hwritten⟩ := depositMarkup_written hs h
      exact hwritten.keeps_totals hs
    case withdrawMarkup => exact (withdrawMarkup_written h).keeps_totals hs
    case refresh =>
      exact refreshInner_written hs (fun _ _ _ _ ht _ _ _ _ _ hwritten =>
        hwritten.keeps_totals ht) h
  · exact hs.of_kept (step_markupKept hc h)

/-! The coefficients of an account. -/

def State.hardcapOf (s : State cfg) (c : CurrencyId) : ℕ :=
  ((s.markupCoefficient c).map MarkupCoefficientInfo.hardcap).elim 0 FixedU128.inner

structure SumsOver (s : State cfg) (currencies : List CurrencyId) : Prop where
  nodup : currencies.Nodup
  others : ∀ c, c ∉ currencies → ∀ w, (s.lockedTokens c).get w = none
  sum : ∀ w, (s.coefficientOf w).inner =
    (currencies.map fun c => markupOf ((s.lockedTokens c).get w)).sum
  inRange : ∀ w, (s.coefficientOf w).inner ≤ u128Max

def SumsUp (s : State cfg) : Prop := ∃ currencies, SumsOver s currencies

theorem SumsUp.of_kept (hs : SumsUp s) (h : MarkupKept s s') : SumsUp s' := by
  obtain ⟨currencies, hsums⟩ := hs
  have hcoefficient : s'.coefficientOf = s.coefficientOf := by
    unfold State.coefficientOf
    rw [h.infos]
  refine ⟨currencies, hsums.nodup, ?_, ?_, ?_⟩
  · rw [h.tokens]
    exact hsums.others
  · rw [h.tokens, hcoefficient]
    exact hsums.sum
  · rw [hcoefficient]
    exact hsums.inRange

theorem SumsUp.with (hs : SumsUp s) (currency : CurrencyId) :
    ∃ currencies, currency ∈ currencies ∧ SumsOver s currencies := by
  obtain ⟨currencies, hsums⟩ := hs
  by_cases hmem : currency ∈ currencies
  · exact ⟨currencies, hmem, hsums⟩
  · refine ⟨currency :: currencies, List.mem_cons_self, List.nodup_cons.mpr ⟨hmem, hsums.nodup⟩,
      fun c hc => hsums.others c fun h => hc (List.mem_cons_of_mem _ h), fun w => ?_,
      hsums.inRange⟩
    rw [List.map_cons, List.sum_cons, hsums.others currency hmem w, ← hsums.sum w]
    exact (Nat.zero_add _).symm

theorem TokenWritten.keeps_sums (h : TokenWritten s currency w token s') (hs : SumsUp s)
    (hfits : (s.coefficientOf w).inner - markupOf ((s.lockedTokens currency).get w) +
      markupOf token ≤ u128Max) : SumsUp s' := by
  obtain ⟨currencies, hmem, hsums⟩ := hs.with currency
  have hcoefficient := h.coefficient hfits
  refine ⟨currencies, hsums.nodup, fun c hc v => ?_, fun v => ?_, fun v => ?_⟩
  · have hne : c ≠ currency := by
      rintro rfl
      exact hc hmem
    rw [h.get, if_neg fun hand => hne hand.1]
    exact hsums.others c hc v
  · by_cases hv : v = w
    · subst v
      have hexchange := Sums.sum_add_of_mem
        (f := fun c => markupOf ((s'.lockedTokens c).get w))
        (g := fun c => markupOf ((s.lockedTokens c).get w)) hsums.nodup hmem (fun c hc => by
          rw [h.get, if_neg fun hand => hc hand.1])
      have hnew : (s'.lockedTokens currency).get w = token := by
        rw [h.get, if_pos ⟨rfl, rfl⟩]
      have hle : markupOf ((s.lockedTokens currency).get w) ≤ (s.coefficientOf w).inner := by
        rw [hsums.sum w]
        exact List.single_le_sum (fun _ _ => Nat.zero_le _) _
          (List.mem_map.mpr ⟨currency, hmem, rfl⟩)
      rw [hnew, ← hsums.sum w] at hexchange
      omega
    · rw [h.others v hv, hsums.sum v]
      congr 1
      apply List.map_congr_left
      intro c _
      rw [h.get, if_neg fun hand => hv hand.2]
  · by_cases hv : v = w
    · subst v
      rw [hcoefficient]
      exact hfits
    · rw [h.others v hv]
      exact hsums.inRange v

/-- No sum of coefficients leaves the range of `FixedU128`, whatever the hardcap lets one be. -/
def SumFits (s : State cfg) : Call cfg → Prop
  | .depositMarkup who currency _ => (s.coefficientOf who).inner -
      markupOf ((s.lockedTokens currency).get who) + s.hardcapOf currency ≤ u128Max
  | .refresh currency => ∀ e ∈ (s.lockedTokens currency).entries, (s.coefficientOf e.1).inner -
      e.2.markupCoefficient.inner + s.hardcapOf currency ≤ u128Max
  | _ => True

theorem TokenWritten.markup_le
    (h : TokenWritten s currency w token s') : markupOf token ≤ s.hardcapOf currency := by
  cases token with
  | none => exact Nat.zero_le _
  | some t =>
    obtain ⟨info, hinfo, hle⟩ := h.capped t rfl
    unfold State.hardcapOf
    rw [hinfo]
    exact hle

theorem step_sumsUp {c : Call cfg} (hs : SumsUp s) (htotals : Totals s) (hok : SumFits s c)
    (h : step s c = .ok s') : SumsUp s' := by
  by_cases hc : c.Marks
  · cases c <;> simp only [Call.Marks] at hc
    case setMarkupCoefficient =>
      cases h
      obtain ⟨currencies, hsums⟩ := hs
      exact ⟨currencies, hsums.nodup, hsums.others, hsums.sum, hsums.inRange⟩
    case depositMarkup who currency value =>
      obtain ⟨token, -, hwritten⟩ := depositMarkup_written htotals h
      exact hwritten.keeps_sums hs ((Nat.add_le_add_left hwritten.markup_le _).trans hok)
    case withdrawMarkup who currency =>
      obtain ⟨currencies, hsums⟩ := hs
      exact (withdrawMarkup_written h).keeps_sums ⟨currencies, hsums⟩
        ((Nat.sub_le _ _).trans (hsums.inRange who))
    case refresh currency =>
      refine refreshInner_written hs ?_ h
      intro t t' v token ht hcoef htoken hsome _ hcap hwritten
      refine hwritten.keeps_sums ht ?_
      refine (Nat.add_le_add_left hwritten.markup_le _).trans ?_
      have hhardcap : t.hardcapOf currency = s.hardcapOf currency := by
        unfold State.hardcapOf
        rw [hcap]
      rw [hcoef, htoken, hhardcap]
      obtain ⟨old, hold⟩ := Option.ne_none_iff_exists'.mp hsome
      rw [hold]
      exact hok (v, old) (Table.mem_entries.mpr hold)
  · exact hs.of_kept (step_markupKept hc h)

/-! The hardcaps. -/

def Capped (s : State cfg) : Prop :=
  ∀ c w t, (s.lockedTokens c).get w = some t → ∃ info, s.markupCoefficient c = some info ∧
    t.markupCoefficient.inner ≤ info.hardcap.inner

theorem Capped.of_kept (hs : Capped s) (h : MarkupKept s s') : Capped s' := by
  unfold Capped
  rw [h.tokens, h.coefficients]
  exact hs

theorem TokenWritten.keeps_capped
    (h : TokenWritten s currency w token s') (hs : Capped s) : Capped s' := by
  intro c v t ht
  have hcap : ∃ info, s.markupCoefficient c = some info ∧
      t.markupCoefficient.inner ≤ info.hardcap.inner := by
    rw [h.get] at ht
    by_cases hcv : c = currency ∧ v = w
    · rw [if_pos hcv] at ht
      rw [hcv.1]
      exact h.capped t ht
    · rw [if_neg hcv] at ht
      exact hs c v t ht
  obtain ⟨info, hinfo, hle⟩ := hcap
  have hhardcap := h.hardcaps c
  rw [hinfo] at hhardcap
  obtain ⟨info', hinfo', heq⟩ := Option.map_eq_some_iff.mp hhardcap
  exact ⟨info', hinfo', heq ▸ hle⟩

/-- No hardcap is set below a coefficient in use. -/
def KeepsCaps (s : State cfg) : Call cfg → Prop
  | .setMarkupCoefficient currency _ hardcap _ => ∀ e ∈ (s.lockedTokens currency).entries,
      e.2.markupCoefficient.inner ≤ hardcap.inner
  | _ => True

theorem step_capped {c : Call cfg} (hs : Capped s) (htotals : Totals s) (hok : KeepsCaps s c)
    (h : step s c = .ok s') : Capped s' := by
  by_cases hc : c.Marks
  · cases c <;> simp only [Call.Marks] at hc
    case setMarkupCoefficient currency markup hardcap rwi =>
      cases h
      intro c w t ht
      have hset : (setMarkupCoefficient s currency markup hardcap rwi).markupCoefficient =
        Function.update s.markupCoefficient currency
          (some ⟨markup, hardcap, s.blockNumber, rwi⟩) := rfl
      rw [hset]
      by_cases hcurrency : c = currency
      · subst c
        exact ⟨_, Function.update_self .., hok (w, t) (Table.mem_entries.mpr ht)⟩
      · rw [Function.update_of_ne hcurrency]
        exact hs c w t ht
    case depositMarkup =>
      obtain ⟨token, -, hwritten⟩ := depositMarkup_written htotals h
      exact hwritten.keeps_capped hs
    case withdrawMarkup => exact (withdrawMarkup_written h).keeps_capped hs
    case refresh =>
      exact refreshInner_written hs (fun _ _ _ _ ht _ _ _ _ _ hwritten =>
        hwritten.keeps_capped ht) h
  · exact hs.of_kept (step_markupKept hc h)

/-! The locks on the accounts. -/

def Covered (s : State cfg) : Prop :=
  ∀ c w, cfg.currencies.lock s.ledger .markupLockId c w = amountOf ((s.lockedTokens c).get w) ∧
    amountOf ((s.lockedTokens c).get w) ≤ cfg.currencies.freeBalance s.ledger c w

theorem Covered.of_kept (hs : Covered s) (h : MarkupKept s s') : Covered s' := by
  intro c w
  obtain ⟨hlock, hle⟩ := hs c w
  have hcovers := h.covers c w (hlock ▸ hle)
  rw [h.lock, hlock] at hcovers
  rw [h.tokens, h.lock]
  exact ⟨hlock, hcovers⟩

theorem TokenWritten.keeps_covered (h : TokenWritten s currency w token s') (hs : Covered s)
    (hbacked : amountOf token ≤ cfg.currencies.freeBalance s.ledger currency w) : Covered s' := by
  intro c v
  refine ⟨h.lock c v (hs c v).1, ?_⟩
  rw [h.free, h.get]
  by_cases hcv : c = currency ∧ v = w
  · rw [if_pos hcv, hcv.1, hcv.2]
    exact hbacked
  · rw [if_neg hcv]
    exact (hs c v).2

/-- No more is locked for a markup than the account has. -/
def BacksMarkup (s : State cfg) : Call cfg → Prop
  | .depositMarkup who currency value => amountOf ((s.lockedTokens currency).get who) + value ≤
      cfg.currencies.freeBalance s.ledger currency who
  | _ => True

theorem step_covered {c : Call cfg} (hs : Covered s) (htotals : Totals s) (hok : BacksMarkup s c)
    (h : step s c = .ok s') : Covered s' := by
  by_cases hc : c.Marks
  · cases c <;> simp only [Call.Marks] at hc
    case setMarkupCoefficient =>
      cases h
      exact hs
    case depositMarkup =>
      obtain ⟨token, hamount, hwritten⟩ := depositMarkup_written htotals h
      exact hwritten.keeps_covered hs (hamount.trans_le hok)
    case withdrawMarkup => exact (withdrawMarkup_written h).keeps_covered hs (Nat.zero_le _)
    case refresh currency =>
      refine refreshInner_written hs ?_ h
      intro t t' v token ht _ htoken _ hamount _ hwritten
      refine hwritten.keeps_covered ht ?_
      rw [hamount, ← htoken]
      exact (ht currency v).2
  · exact hs.of_kept (step_markupKept hc h)

/-! Runs. -/

/-- In every state that is reached the total locks are the sums of what is locked. The coefficient
of every account is the sum of those of its tokens while no sum leaves its range; each is at most
its hardcap while no hardcap is set below one in use; and every lock is covered while none is
made beyond the balance. -/
theorem markups_agree (accounts : Unlocked cfg) (outside : cfg.Outside) (n : ℕ)
    (calls : List (Call cfg)) :
    Totals (run step (genesis cfg accounts outside n) calls) ∧
      (Meets step SumFits (genesis cfg accounts outside n) calls →
        SumsUp (run step (genesis cfg accounts outside n) calls)) ∧
      (Meets step KeepsCaps (genesis cfg accounts outside n) calls →
        Capped (run step (genesis cfg accounts outside n) calls)) ∧
      (Meets step BacksMarkup (genesis cfg accounts outside n) calls →
        Covered (run step (genesis cfg accounts outside n) calls)) := by
  have hgenesis : Totals (genesis cfg accounts outside n) := fun _ => rfl
  refine ⟨?_, fun h => ?_, fun h => ?_, fun h => ?_⟩
  · exact run_invariant (I := Totals) (fun _ _ _ hs _ hstep => step_totals hs hstep) calls hgenesis
      (meets_true _ _)
  · have hsums : SumsUp (genesis cfg accounts outside n) :=
      ⟨[], List.nodup_nil, fun _ _ _ => rfl, fun _ => rfl, fun _ => Nat.zero_le _⟩
    exact (run_invariant (I := fun s => SumsUp s ∧ Totals s) (fun _ _ _ hs hok hstep =>
      ⟨step_sumsUp hs.1 hs.2 hok hstep, step_totals hs.2 hstep⟩) calls ⟨hsums, hgenesis⟩ h).1
  · have hcapped : Capped (genesis cfg accounts outside n) := fun _ _ _ hnone => by cases hnone
    exact (run_invariant (I := fun s => Capped s ∧ Totals s) (fun _ _ _ hs hok hstep =>
      ⟨step_capped hs.1 hs.2 hok hstep, step_totals hs.2 hstep⟩) calls ⟨hcapped, hgenesis⟩ h).1
  · have hcovered : Covered (genesis cfg accounts outside n) :=
      fun c w => ⟨accounts.unlocked _ c w, Nat.zero_le _⟩
    exact (run_invariant (I := fun s => Covered s ∧ Totals s) (fun _ _ _ hs hok hstep =>
      ⟨step_covered hs.1 hs.2 hok hstep, step_totals hs.2 hstep⟩) calls ⟨hcovered, hgenesis⟩ h).1

namespace Sample

/-- Half a point for the whole issuance, at most two. -/
def marking (hardcap : ℕ) : Call config :=
  .setMarkupCoefficient vdot ⟨500000000000000000⟩ ⟨hardcap⟩ .zero

/-- Two accounts lock tokens for a markup, the hardcap is lowered to what is in use, one account
withdraws and the other is refreshed. -/
def markups : List (Call config) :=
  [marking 2000000000000000000, .depositMarkup 1 vdot 400000, .depositMarkup 2 vdot 100000,
    marking 200000000000000000, .withdrawMarkup 2 vdot, .refresh vdot]

theorem markups_fit : Meets step SumFits (genesis config wealth () 1) markups := by
  refine ⟨fun _ _ => trivial, fun _ _ => ?_, fun _ _ => ?_, fun _ _ => trivial, fun _ _ => trivial,
    fun _ _ => ?_, trivial⟩ <;> unfold SumFits <;> decide +kernel

theorem markups_capped : Meets step KeepsCaps (genesis config wealth () 1) markups := by
  refine ⟨fun _ _ => ?_, fun _ _ => trivial, fun _ _ => trivial, fun _ _ => ?_, fun _ _ => trivial,
    fun _ _ => trivial, trivial⟩ <;> unfold KeepsCaps marking <;> decide +kernel

theorem markups_backed : Meets step BacksMarkup (genesis config wealth () 1) markups := by
  refine ⟨fun _ _ => trivial, fun _ _ => ?_, fun _ _ => ?_, fun _ _ => trivial, fun _ _ => trivial,
    fun _ _ => trivial, trivial⟩ <;> unfold BacksMarkup <;> decide +kernel

end Sample

theorem markups_agree_sample :
    Totals (run step (genesis Sample.config Sample.wealth () 1) Sample.markups) ∧
      SumsUp (run step (genesis Sample.config Sample.wealth () 1) Sample.markups) ∧
      Capped (run step (genesis Sample.config Sample.wealth () 1) Sample.markups) ∧
      Covered (run step (genesis Sample.config Sample.wealth () 1) Sample.markups) := by
  obtain ⟨htotals, hsums, hcapped, hcovered⟩ :=
    markups_agree Sample.wealth () 1 Sample.markups
  exact ⟨htotals, hsums Sample.markups_fit, hcapped Sample.markups_capped,
    hcovered Sample.markups_backed⟩

/-- An account locks twice what it has, and then the hardcap is set below its coefficient. -/
theorem markup_unbacked :
    Sample.config.currencies.freeBalance (run step Sample.start
        [Sample.marking 2000000000000000000, .depositMarkup 1 Sample.vdot 2000000]).ledger
        Sample.vdot 1 <
      amountOf (((run step Sample.start
        [Sample.marking 2000000000000000000, .depositMarkup 1 Sample.vdot 2000000]).lockedTokens
          Sample.vdot).get 1) ∧
    (run step Sample.start [Sample.marking 2000000000000000000, .depositMarkup 1 Sample.vdot 400000,
        Sample.marking 0]).hardcapOf Sample.vdot <
      markupOf (((run step Sample.start [Sample.marking 2000000000000000000,
        .depositMarkup 1 Sample.vdot 400000, Sample.marking 0]).lockedTokens Sample.vdot).get 1) := by
  decide +kernel

end Bifrost.BbBnc
