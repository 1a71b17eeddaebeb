import Bifrost.ChannelCommission.Transitions

/-!
# Commissions as pools

The commissions of a token are a pool that is paid out in rounds: the first block of a clearing
begins one, the block of a channel takes parts of it, the final block closes it. This is what each
of them does to the pool, entry by entry.
-/

namespace Bifrost.ChannelCommission

open Result Clearing
set_option autoImplicit false

variable {AccountId : Type} {cfg : Config AccountId} {s s' : State cfg} {token : CurrencyId}

/-- One, in the parts that are taken. -/
def wholeParts : ℕ := Permill.accuracy * Percent.accuracy

/-- Nothing was recorded, and no period has begun. -/
structure SameRecords (p p' : Pool) : Prop where
  recorded : p'.recorded = p.recorded
  collected : p'.collected = p.collected
  pending : p'.pending = p.pending

theorem SameRecords.trans {p p' p'' : Pool} (h : SameRecords p p') (h' : SameRecords p' p'') :
    SameRecords p p'' :=
  ⟨h'.recorded.trans h.recorded, h'.collected.trans h.collected, h'.pending.trans h.pending⟩

/-! What the functions do to a pool. -/

theorem credit_pool (channelId : ℕ) (token' : CurrencyId) (amount parts : ℕ) :
    (s.credit channelId token' amount parts).pool token =
      if token = token' then (s.pool token).take u128Max
        (U128.saturatingAdd (s.claimable channelId token) amount - s.claimable channelId token)
        amount parts
      else s.pool token := by
  by_cases h : token = token'
  · subst h
    simp only [State.pool, State.credit, Function.update_self, if_true, Pool.take,
      U128.saturatingAdd, Pool.mk.injEq, and_self, and_true, true_and]
    omega
  · rw [if_neg h]
    simp only [State.pool, State.credit, Function.update_of_ne h]

theorem settle_pool (token' : CurrencyId) (amount : ℕ) :
    (s.settle token' amount).pool token =
      if token = token' then (s.pool token).close amount else s.pool token := by
  by_cases h : token = token'
  · subst h
    simp only [State.pool, State.settle, Function.update_self, if_true, Pool.close, Nat.add_assoc]
  · rw [if_neg h]
    simp only [State.pool, State.settle, Function.update_of_ne h]

theorem shiftPeriod_pool : s.shiftPeriod.pool token = (s.pool token).begin := rfl

theorem feeRecorded_pool (token' : CurrencyId) (amount : ℕ) :
    (s.feeRecorded token' amount).pool token =
      if token = token' then (s.pool token).record amount else s.pool token := by
  by_cases h : token = token'
  · subst h
    simp only [State.pool, State.feeRecorded, Function.update_self, if_true, Pool.record]
  · rw [if_neg h]
    simp only [State.pool, State.feeRecorded, Function.update_of_ne h]

theorem configured_pool (vtoken token' : CurrencyId) :
    (s.configured vtoken token').pool token =
      if token = vtoken then (s.pool token).recount else s.pool token := by
  by_cases h : token = vtoken
  · subst h
    simp only [State.pool, State.configured, Function.update_self, if_true, Pool.recount]
  · rw [if_neg h]
    simp only [State.pool, State.configured, Function.update_of_ne h]

theorem removeVtoken_pool (vtoken : CurrencyId) :
    (s.removeVtoken vtoken).pool token =
      if token = vtoken then (s.pool token).void else s.pool token := by
  by_cases h : token = vtoken
  · subst h
    simp only [State.pool, State.removeVtoken, Function.update_self, if_true, Pool.void]
  · rw [if_neg h]
    simp only [State.pool, State.removeVtoken, Function.update_of_ne h]

/-! The block of a channel. -/

/-- Share and rate, both rounded down, stay within the parts they are of the commission. -/
theorem channelCommission_mul_le (channelId : ℕ) (vtoken : CurrencyId) (share : Permill) :
    s.channelCommission channelId vtoken token share * wholeParts ≤
      s.commissionParts channelId vtoken share * (s.periodTotalCommissions token).1 := by
  unfold State.channelCommission State.commissionParts Percent.mulFloor Permill.mulFloor wholeParts
  generalize (s.commissionRate channelId vtoken).parts = rate
  generalize (s.periodTotalCommissions token).1 = total
  have hshare := Nat.div_mul_le_self (total * share.parts) Permill.accuracy
  generalize total * share.parts / Permill.accuracy = raw at *
  have hrate := Nat.div_mul_le_self (raw * rate) Percent.accuracy
  generalize raw * rate / Percent.accuracy = commission at *
  calc commission * (Permill.accuracy * Percent.accuracy)
      = commission * Percent.accuracy * Permill.accuracy := by ring
    _ ≤ raw * rate * Permill.accuracy := Nat.mul_le_mul_right _ hrate
    _ = raw * Permill.accuracy * rate := by ring
    _ ≤ total * share.parts * rate := Nat.mul_le_mul_right _ hshare
    _ = share.parts * rate * total := by ring

/-- `f` of the shares in `l` that are cleared in the token, added up. -/
def State.sumCleared (s : State cfg) (token : CurrencyId) (f : CurrencyId → Permill → ℕ)
    (l : List (CurrencyId × Permill)) : ℕ :=
  (l.map fun e => if s.clearedIn e.1 = some token then f e.1 e.2 else 0).sum

/-- The parts of the token's commission that the block of a channel takes. -/
def State.partsTaken (s : State cfg) (channelId : ℕ) (token : CurrencyId) : ℕ :=
  s.sumCleared token (s.commissionParts channelId) (cfg.iter (s.channelVtokenShares channelId))

/-- What the block of a channel credits to it in the token. -/
def State.creditDue (s : State cfg) (channelId : ℕ) (token : CurrencyId) : ℕ :=
  s.sumCleared token (fun vtoken share => s.channelCommission channelId vtoken token share)
    (cfg.iter (s.channelVtokenShares channelId))

section ChannelBlock

variable {e : CurrencyId × Permill} {l : List (CurrencyId × Permill)}

theorem clearChannelVtoken_ne (channelId : ℕ) (h : s.clearedIn e.1 ≠ some token) :
    (State.clearChannelVtoken channelId s e).pool token = s.pool token ∧
      (State.clearChannelVtoken channelId s e).claimable channelId token =
        s.claimable channelId token := by
  unfold State.clearChannelVtoken
  split
  · exact ⟨rfl, rfl⟩
  · rename_i token' htoken
    have hne : token ≠ token' := by
      rintro rfl
      exact h htoken
    refine ⟨by rw [credit_pool, if_neg hne], ?_⟩
    simp only [State.claimable, State.credit, Function.update_self, Table.get_write_ne _ _ hne]

theorem clearChannelVtoken_eq (channelId : ℕ) (h : s.clearedIn e.1 = some token) :
    State.clearChannelVtoken channelId s e =
      s.credit channelId token (s.channelCommission channelId e.1 token e.2)
        (s.commissionParts channelId e.1 e.2) := by
  simp only [State.clearChannelVtoken, h]

theorem sumCleared_clearChannelVtoken (channelId : ℕ) (e : CurrencyId × Permill)
    (f : State cfg → CurrencyId → Permill → ℕ) (hf : ∀ s claimable cleared history, f { s with
      channelClaimableCommissions := claimable
      periodClearedCommissions := cleared
      history := history } = f s) :
    (State.clearChannelVtoken channelId s e).sumCleared token
      (f (State.clearChannelVtoken channelId s e)) l = s.sumCleared token (f s) l := by
  unfold State.clearChannelVtoken
  split
  · rfl
  · unfold State.credit
    rw [hf]
    rfl

theorem sumCleared_cons (f : CurrencyId → Permill → ℕ) (e : CurrencyId × Permill)
    (l : List (CurrencyId × Permill)) : s.sumCleared token f (e :: l) =
      (if s.clearedIn e.1 = some token then f e.1 e.2 else 0) + s.sumCleared token f l := by
  simp only [State.sumCleared, List.map_cons, List.sum_cons]

theorem clearChannelVtoken_covered (channelId : ℕ)
    (hcovered : (s.pool token).Covered u128Max wholeParts)
    (hfits : (s.pool token).Fits wholeParts
      (s.sumCleared token (s.commissionParts channelId) (e :: l))) :
    ((State.clearChannelVtoken channelId s e).pool token).Covered u128Max wholeParts ∧
      ((State.clearChannelVtoken channelId s e).pool token).Fits wholeParts
        ((State.clearChannelVtoken channelId s e).sumCleared token
          ((State.clearChannelVtoken channelId s e).commissionParts channelId) l) := by
  rw [sumCleared_clearChannelVtoken channelId e (fun s => s.commissionParts channelId)
    fun _ _ _ _ => rfl]
  rw [sumCleared_cons] at hfits
  by_cases htoken : s.clearedIn e.1 = some token
  · rw [if_pos htoken] at hfits
    rw [clearChannelVtoken_eq channelId htoken, credit_pool, if_pos rfl]
    refine ⟨?_, hfits.take _ _⟩
    apply hcovered.take (by decide) _ (channelCommission_mul_le channelId e.1 e.2)
      (hfits.mono (Nat.le_add_right _ _))
    simp only [U128.saturatingAdd]
    omega
  · rw [if_neg htoken, Nat.zero_add] at hfits
    rw [(clearChannelVtoken_ne channelId htoken).1]
    exact ⟨hcovered, hfits⟩

theorem clearChannelVtokens_covered (channelId : ℕ)
    (hcovered : (s.pool token).Covered u128Max wholeParts)
    (hfits : (s.pool token).Fits wholeParts
      (s.sumCleared token (s.commissionParts channelId) l)) :
    ((l.foldl (State.clearChannelVtoken channelId) s).pool token).Covered u128Max wholeParts := by
  induction l generalizing s with
  | nil => exact hcovered
  | cons e l ih =>
    obtain ⟨hcovered, hfits⟩ := clearChannelVtoken_covered channelId hcovered hfits
    exact ih hcovered hfits

theorem clearChannelVtoken_served (channelId : ℕ)
    (hcovered : (s.pool token).Covered u128Max wholeParts)
    (hfits : (s.pool token).Fits wholeParts
      (s.sumCleared token (s.commissionParts channelId) (e :: l)))
    (hroom : s.claimable channelId token + s.sumCleared token
      (fun vtoken share => s.channelCommission channelId vtoken token share) (e :: l) ≤ u128Max) :
    let t := State.clearChannelVtoken channelId s e
    t.claimable channelId token + t.sumCleared token
        (fun vtoken share => t.channelCommission channelId vtoken token share) l ≤ u128Max ∧
      ((s.pool token).Settled → (t.pool token).Settled) ∧
      ((s.pool token).Running → (t.pool token).Running) := by
  intro t
  have hrest : t.sumCleared token
      (fun vtoken share => t.channelCommission channelId vtoken token share) l =
      s.sumCleared token (fun vtoken share => s.channelCommission channelId vtoken token share) l :=
    sumCleared_clearChannelVtoken channelId e
      (fun s vtoken share => s.channelCommission channelId vtoken token share) fun _ _ _ _ => rfl
  rw [sumCleared_cons] at hroom hfits
  by_cases htoken : s.clearedIn e.1 = some token
  · rw [if_pos htoken] at hroom hfits
    have hmul : s.channelCommission channelId e.1 token e.2 * wholeParts ≤
        s.commissionParts channelId e.1 e.2 * (s.pool token).last :=
      channelCommission_mul_le channelId e.1 e.2
    have hfits' := hfits.mono (Nat.le_add_right _ _)
    have ht : t = s.credit channelId token (s.channelCommission channelId e.1 token e.2)
      (s.commissionParts channelId e.1 e.2) := clearChannelVtoken_eq channelId htoken
    generalize s.channelCommission channelId e.1 token e.2 = amount at *
    have hclaimable : t.claimable channelId token = s.claimable channelId token + amount := by
      rw [ht]
      simp only [State.claimable, State.credit, Function.update_self, Table.get_write_self,
        Option.getD_some, U128.saturatingAdd] at hroom ⊢
      omega
    have hpool : t.pool token = (s.pool token).take u128Max amount amount
        (s.commissionParts channelId e.1 e.2) := by
      have hactual : U128.saturatingAdd (s.claimable channelId token) amount -
          s.claimable channelId token = amount := by
        unfold U128.saturatingAdd
        omega
      rw [ht, credit_pool, if_pos rfl, hactual]
    rw [hrest, hclaimable, hpool]
    exact ⟨by omega, fun h => h.take hcovered (by decide) (Nat.le_refl _) hmul hfits',
      fun h => h.take hcovered (by decide) hmul hfits'⟩
  · rw [if_neg htoken, Nat.zero_add] at hroom
    obtain ⟨hpool, hclaimable⟩ := clearChannelVtoken_ne channelId htoken
    rw [hrest, hclaimable, hpool]
    exact ⟨hroom, id, id⟩

theorem clearChannelVtokens_served (channelId : ℕ)
    (hcovered : (s.pool token).Covered u128Max wholeParts)
    (hfits : (s.pool token).Fits wholeParts
      (s.sumCleared token (s.commissionParts channelId) l))
    (hroom : s.claimable channelId token + s.sumCleared token
      (fun vtoken share => s.channelCommission channelId vtoken token share) l ≤ u128Max) :
    let t := l.foldl (State.clearChannelVtoken channelId) s
    ((s.pool token).Settled → (t.pool token).Settled) ∧
      ((s.pool token).Running → (t.pool token).Running) := by
  induction l generalizing s with
  | nil => exact ⟨id, id⟩
  | cons e l ih =>
    obtain ⟨hroom', hsettled, hrunning⟩ := clearChannelVtoken_served channelId hcovered hfits hroom
    obtain ⟨hcovered', hfits'⟩ := clearChannelVtoken_covered channelId hcovered hfits
    obtain ⟨hsettled', hrunning'⟩ := ih hcovered' hfits' hroom'
    exact ⟨fun h => hsettled' (hsettled h), fun h => hrunning' (hrunning h)⟩

theorem clearChannelVtokens_records (channelId : ℕ) :
    SameRecords (s.pool token) ((l.foldl (State.clearChannelVtoken channelId) s).pool token) := by
  induction l generalizing s with
  | nil => exact ⟨rfl, rfl, rfl⟩
  | cons e l ih =>
    refine SameRecords.trans ?_ (@ih (State.clearChannelVtoken channelId s e))
    by_cases h : s.clearedIn e.1 = some token
    · rw [clearChannelVtoken_eq channelId h, credit_pool, if_pos rfl]
      exact ⟨rfl, rfl, rfl⟩
    · rw [(clearChannelVtoken_ne channelId h).1]
      exact ⟨rfl, rfl, rfl⟩

theorem clearChannelCommissions_covered (channelId : ℕ)
    (hcovered : (s.pool token).Covered u128Max wholeParts)
    (hfits : (s.pool token).Fits wholeParts (s.partsTaken channelId token)) :
    ((s.clearChannelCommissions channelId).pool token).Covered u128Max wholeParts := by
  unfold State.clearChannelCommissions
  split
  · exact hcovered
  · exact clearChannelVtokens_covered channelId hcovered hfits

theorem clearChannelCommissions_served (channelId : ℕ)
    (hcovered : (s.pool token).Covered u128Max wholeParts)
    (hfits : (s.pool token).Fits wholeParts (s.partsTaken channelId token))
    (hroom : s.claimable channelId token + s.creditDue channelId token ≤ u128Max) :
    ((s.pool token).Settled → ((s.clearChannelCommissions channelId).pool token).Settled) ∧
      ((s.pool token).Running → ((s.clearChannelCommissions channelId).pool token).Running) := by
  unfold State.clearChannelCommissions
  split
  · exact ⟨id, id⟩
  · exact clearChannelVtokens_served channelId hcovered hfits hroom

theorem clearChannelCommissions_records (channelId : ℕ) :
    SameRecords (s.pool token) ((s.clearChannelCommissions channelId).pool token) := by
  unfold State.clearChannelCommissions
  split
  · exact ⟨rfl, rfl, rfl⟩
  · exact clearChannelVtokens_records channelId

end ChannelBlock

/-! The final block. -/

def State.listed (s : State cfg) : List CurrencyId := (cfg.iter s.commissionTokens).map Prod.snd

/-- The account of the pallet can pay Bifrost what is left of a token, whatever it pays of other
tokens before. -/
def State.Payable (s : State cfg) (token : CurrencyId) : Prop :=
  ∀ L : cfg.minting.currency.Ledger,
    (∀ x, cfg.minting.currency.freeBalance L token x =
      cfg.minting.currency.freeBalance s.minting.ledger token x) →
    ∃ L', cfg.minting.currency.transfer L token cfg.account cfg.bifrostCommissionReceiver
      (s.bifrostCommission token) = .ok L'

section FinalBlock

variable {l : List CurrencyId} {token' : CurrencyId}

theorem clearBifrostCommission_ne (h : token ≠ token') :
    (State.clearBifrostCommission s token').pool token = s.pool token ∧
      (s.Payable token → (State.clearBifrostCommission s token').Payable token) := by
  have hsettle (amount : ℕ) : (s.settle token' amount).pool token = s.pool token := by
    rw [settle_pool, if_neg h]
  have hdue (amount : ℕ) :
      (s.settle token' amount).bifrostCommission token = s.bifrostCommission token := by
    simp only [State.bifrostCommission, State.settle, Function.update_of_ne h]
  unfold State.clearBifrostCommission
  split
  · refine ⟨hsettle 0, fun hpayable L hL => ?_⟩
    rw [hdue]
    exact hpayable L hL
  · split
    · rename_i minting hminting
      obtain ⟨L₁, hL₁, rfl⟩ := VtokenMinting.transfer_ok hminting
      refine ⟨hsettle _, fun hpayable L hL => ?_⟩
      have hpaid := hpayable L fun x =>
        (hL x).trans (cfg.minting.currency.transfer_frame hL₁ (Or.inr (Or.inl h)))
      rw [← hdue (s.bifrostCommission token')] at hpaid
      exact hpaid
    · refine ⟨hsettle 0, fun hpayable L hL => ?_⟩
      rw [hdue]
      exact hpayable L hL

theorem clearBifrostCommission_self (s : State cfg) (token : CurrencyId) :
    ∃ amount, amount ≤ s.bifrostCommission token ∧
      (State.clearBifrostCommission s token).pool token = (s.pool token).close amount ∧
      (s.Payable token → amount = s.bifrostCommission token) := by
  unfold State.clearBifrostCommission
  split
  · rename_i hzero
    refine ⟨0, Nat.zero_le _, by rw [settle_pool, if_pos rfl], fun _ => hzero.symm⟩
  · split
    · refine ⟨s.bifrostCommission token, Nat.le_refl _, ?_, fun _ => rfl⟩
      have hpool : (s.settle token (s.bifrostCommission token)).pool token =
          (s.pool token).close (s.bifrostCommission token) := by
        rw [settle_pool, if_pos rfl]
      exact hpool
    · rename_i e herror
      refine ⟨0, Nat.zero_le _, by rw [settle_pool, if_pos rfl], fun hpayable => ?_⟩
      obtain ⟨L', hL'⟩ := hpayable s.minting.ledger fun _ => rfl
      simp [VtokenMinting.State.transfer, hL', mapErr, bind, Except.bind, pure,
        Except.pure] at herror

/-- A token comes once to be paid, and again only with nothing to pay. -/
def ComesOnce (l : List CurrencyId) (token : CurrencyId) (p : Pool) : Prop :=
  l.count token = 0 ∨ p.last = 0 ∨ (p.closed = false ∧ l.count token = 1)

instance (l : List CurrencyId) (token : CurrencyId) (p : Pool) : Decidable (ComesOnce l token p) :=
  inferInstanceAs (Decidable (_ ∨ _))

theorem ComesOnce.tail (h : ComesOnce (token :: l) token (s.pool token)) (amount : ℕ) :
    ComesOnce l token ((s.pool token).close amount) ∧
      ((s.pool token).last = 0 ∨ (s.pool token).closed = false) := by
  unfold ComesOnce at h
  rw [List.count_cons_self] at h
  rcases h with h | hnone | ⟨hopen, hcount⟩
  · omega
  · exact ⟨Or.inr (Or.inl hnone), Or.inl hnone⟩
  · exact ⟨Or.inl (by omega), Or.inr hopen⟩

theorem ComesOnce.tail_ne {p : Pool} (h : ComesOnce (token' :: l) token p)
    (hne : token ≠ token') : ComesOnce l token p := by
  unfold ComesOnce at h ⊢
  rw [List.count_cons_of_ne (Ne.symm hne)] at h
  exact h

theorem clearBifrost_covered (hcovered : (s.pool token).Covered u128Max wholeParts)
    (honce : ComesOnce l token (s.pool token)) :
    ((l.foldl State.clearBifrostCommission s).pool token).Covered u128Max wholeParts := by
  induction l generalizing s with
  | nil => exact hcovered
  | cons token' l ih =>
    rw [List.foldl_cons]
    by_cases h : token = token'
    · subst h
      obtain ⟨amount, hle, hpool, -⟩ := clearBifrostCommission_self s token
      obtain ⟨htail, hopen⟩ := honce.tail amount
      rw [← hpool] at htail
      apply ih _ htail
      rw [hpool]
      exact hcovered.close hle hopen
    · have hpool := (clearBifrostCommission_ne (s := s) h).1
      apply ih
      · rw [hpool]
        exact hcovered
      · rw [hpool]
        exact honce.tail_ne h

theorem clearBifrost_settled (hcovered : (s.pool token).Covered u128Max wholeParts)
    (honce : ComesOnce l token (s.pool token))
    (hserved : (s.pool token).Settled ∨
      ((s.pool token).Running ∧ 0 < l.count token ∧ s.Payable token)) :
    ((l.foldl State.clearBifrostCommission s).pool token).Settled := by
  induction l generalizing s with
  | nil =>
    rcases hserved with h | ⟨-, hcount, -⟩
    · exact h
    · exact absurd hcount (Nat.lt_irrefl 0)
  | cons token' l ih =>
    rw [List.foldl_cons]
    by_cases h : token = token'
    · subst h
      obtain ⟨amount, hle, hpool, hfull⟩ := clearBifrostCommission_self s token
      obtain ⟨htail, hopen⟩ := honce.tail amount
      have hclosed : ((s.pool token).close amount).Settled := by
        rcases hserved with hsettled | ⟨hrunning, -, hpayable⟩
        · exact hsettled.close hcovered hle hopen
        · rw [hfull hpayable]
          exact hrunning.close hcovered
      have hkept := hcovered.close hle hopen
      rw [← hpool] at htail hclosed hkept
      exact ih hkept htail (Or.inl hclosed)
    · obtain ⟨hpool, hpayable⟩ := clearBifrostCommission_ne (s := s) h
      have htail := honce.tail_ne h
      rw [List.count_cons_of_ne (Ne.symm h)] at hserved
      rw [← hpool] at hcovered htail hserved
      refine ih hcovered htail (hserved.imp_right ?_)
      rintro ⟨hrunning, hcount, hcan⟩
      exact ⟨hrunning, hcount, hpayable hcan⟩

theorem clearBifrost_records :
    SameRecords (s.pool token) ((l.foldl State.clearBifrostCommission s).pool token) := by
  induction l generalizing s with
  | nil => exact ⟨rfl, rfl, rfl⟩
  | cons token' l ih =>
    refine SameRecords.trans ?_ (@ih (State.clearBifrostCommission s token'))
    by_cases h : token = token'
    · subst h
      obtain ⟨amount, -, hpool, -⟩ := clearBifrostCommission_self s token
      rw [hpool]
      exact ⟨rfl, rfl, rfl⟩
    · rw [(clearBifrostCommission_ne (s := s) h).1]
      exact ⟨rfl, rfl, rfl⟩

end FinalBlock

/-! The hook. -/

namespace State

variable (s : State cfg)

def ChannelBlock : Prop := s.offset ≠ 0 ∧ s.offset < U32.wrappingAdd s.channelNextId 1

def FinalBlock : Prop := s.offset ≠ 0 ∧ s.offset = U32.wrappingAdd s.channelNextId 1

instance : Decidable s.ChannelBlock := inferInstanceAs (Decidable (_ ∧ _))

instance : Decidable s.FinalBlock := inferInstanceAs (Decidable (_ ∧ _))

theorem onIdle_cases :
    (s.offset = 0 ∧ s.onIdle = s.setClearingEnvironment.1) ∨
    (s.ChannelBlock ∧ s.onIdle =
      (s.clearChannelCommissions (s.offset - 1)).updateChannelVtokenShares (s.offset - 1)) ∨
    (s.FinalBlock ∧ s.onIdle = s.clearBifrostCommissions) ∨
    (U32.wrappingAdd s.channelNextId 1 < s.offset ∧ s.onIdle = s) := by
  simp only [onIdle, ChannelBlock, FinalBlock]
  split
  · exact Or.inl ⟨by assumption, rfl⟩
  · rename_i hoffset
    split
    · exact Or.inr (Or.inl ⟨⟨hoffset, by assumption⟩, rfl⟩)
    · split
      · exact Or.inr (Or.inr (Or.inl ⟨⟨hoffset, by assumption⟩, rfl⟩))
      · exact Or.inr (Or.inr (Or.inr ⟨by omega, rfl⟩))

end State

theorem updateChannelVtokenShares_pool (channelId : ℕ) (s : State cfg) :
    (s.updateChannelVtokenShares channelId).pool token = s.pool token := by
  obtain ⟨shares, failures, h⟩ := updateChannelVtokenShares_eq channelId s
  rw [h]
  rfl

end Bifrost.ChannelCommission
