import Bifrost.ChannelCommission.Pools
import Bifrost.VtokenMinting.Agreement

/-!
# Commissions are conserved

What is credited to channels and sent to Bifrost stays within what was recorded as long as the
parts taken in a round fit in one, the final block comes to the token once and once only, and the
count of what was cleared is not reset while it is needed. Two vTokens that share a token are both
listed, so the final block pays the second time what the channels got as well.
-/

namespace Bifrost.ChannelCommission

open Result Machine Clearing
set_option autoImplicit false

variable {AccountId : Type} {cfg : Config AccountId} {s s' : State cfg} {token : CurrencyId}

/-! What is promised, and when it holds. -/

/-- No more is credited and sent than was recorded. -/
def Conserved (token : CurrencyId) (s : State cfg) : Prop :=
  (s.history token).credited + (s.history token).sent ≤ (s.history token).recorded

/-- A period in whose every block the hook ran is over, and it was longer than it takes to come to
each channel and to Bifrost: what was recorded before it is distributed. -/
def Distributed (token : CurrencyId) (s : State cfg) : Prop :=
  s.steady = true → s.offset = 0 → s.channelNextId + 1 < cfg.clearingDuration →
    (s.history token).credited + (s.history token).sent =
      (s.history token).opening + (s.history token).due

/-- The call takes from the pool of the token only what the round has left. -/
def ClearsOnce (token : CurrencyId) (s : State cfg) : Call cfg → Prop
  | .endBlock enough => enough = true →
    (s.ChannelBlock → (s.pool token).Fits wholeParts (s.partsTaken (s.offset - 1) token)) ∧
    (s.FinalBlock → ComesOnce s.listed token (s.pool token))
  | .setCommissionTokens _ vtoken (some _) => vtoken = token →
    (s.pool token).last = 0 ∨ (s.pool token).closed = true ∨ (s.pool token).spent = 0
  | _ => True

/-- The call does not keep a round from being paid out: it starts without a count, claims have
room, the token is listed at its end and can be paid, and nothing of it is removed. -/
def Serves (token : CurrencyId) (s : State cfg) : Call cfg → Prop
  | .endBlock enough => enough = true →
    (s.offset = 0 → (s.pool token).counted = 0 ∨ (s.pool token).collected = 0) ∧
    (s.ChannelBlock →
      s.claimable (s.offset - 1) token + s.creditDue (s.offset - 1) token ≤ u128Max) ∧
    (s.FinalBlock → 0 < (s.pool token).last → (s.pool token).closed = false →
      token ∈ s.listed ∧ s.Payable token)
  | .setCommissionTokens _ vtoken none => vtoken = token →
    (s.pool token).collected = 0 ∧ ((s.pool token).closed = true ∨ (s.pool token).last = 0)
  | .registerChannel .. => s.channelNextId < u32Max
  | _ => True

instance (token : CurrencyId) (s : State cfg) : ∀ call, Decidable (ClearsOnce token s call)
  | .endBlock _ => inferInstanceAs (Decidable (_ → _))
  | .setCommissionTokens _ _ (some _) => inferInstanceAs (Decidable (_ → _))
  | .setCommissionTokens _ _ none | .registerChannel .. | .removeChannel ..
  | .updateChannelReceiveAccount .. | .setChannelCommissionToken .. | .claimCommissions ..
  | .setChannelVtokenShares .. | .mint .. | .redeem .. | .recordHostingFee .. | .outside _ =>
    .isTrue trivial

/-! Every call but the end of a block. -/

structure SameClock (s : State cfg) (call : Call cfg) (s' : State cfg) : Prop where
  blockNumber : s'.blockNumber = s.blockNumber
  steady : s'.steady = s.steady
  keyed : s.Keyed → s'.Keyed
  next : s'.channelNextId = s.channelNextId ∨
    ∃ origin channelName receiveAccount, call = .registerChannel origin channelName receiveAccount ∧
      s'.channelNextId = U32.wrappingAdd s.channelNextId 1

/-- What a call does to the pool of a token. -/
inductive PoolMove (token : CurrencyId) (s : State cfg) : Call cfg → Pool → Prop where
  | kept (call : Call cfg) : PoolMove token s call (s.pool token)
  | recorded (stakingToken : CurrencyId) (fee amount : ℕ)
      (hle : (s.pool token).collected + amount ≤ u128Max) :
      PoolMove token s (.recordHostingFee stakingToken fee) ((s.pool token).record amount)
  | recounted (origin : Origin) (commissionToken : CurrencyId) :
      PoolMove token s (.setCommissionTokens origin token (some commissionToken))
        (s.pool token).recount
  | voided (origin : Origin) :
      PoolMove token s (.setCommissionTokens origin token none) (s.pool token).void

theorem configured_keyed {vtoken token' : CurrencyId} (hv : vtoken.isVtoken = true)
    (hs : s.Keyed) : (s.configured vtoken token').Keyed := by
  intro v hsome
  by_cases h : v = vtoken
  · exact h ▸ hv
  · apply hs
    simpa only [State.configured, Table.get_write_ne _ _ h] using hsome

theorem removeVtoken_keyed {vtoken : CurrencyId} (hs : s.Keyed) : (s.removeVtoken vtoken).Keyed := by
  intro v hsome
  by_cases h : v = vtoken
  · subst h
    simp only [State.removeVtoken, Table.get_write_self, Option.isSome_none,
      Bool.false_eq_true] at hsome
  · apply hs
    simpa only [State.removeVtoken, Table.get_write_ne _ _ h] using hsome

theorem step_cases [DecidableEq AccountId] (token : CurrencyId) {call : Call cfg}
    (h : step s call = .ok s') :
    (∃ enough, call = .endBlock enough ∧ s' = s.endBlock enough) ∨
      (SameClock s call s' ∧ PoolMove token s call (s'.pool token)) := by
  cases call with
  | registerChannel origin channelName receiveAccount =>
    simp only [step, bind_eq_ok] at h
    obtain ⟨-, -, h⟩ := h
    obtain ⟨channel, rates, rfl⟩ := registerChannel_ok h
    exact Or.inr ⟨⟨rfl, rfl, id, Or.inr ⟨_, _, _, rfl, rfl⟩⟩, .kept _⟩
  | removeChannel origin channelId complete =>
    simp only [step, bind_eq_ok] at h
    obtain ⟨-, -, h⟩ := h
    obtain ⟨minting, claimable, rates, -, rfl⟩ := removeChannel_ok h
    exact Or.inr ⟨⟨rfl, rfl, id, Or.inl rfl⟩, .kept _⟩
  | updateChannelReceiveAccount origin channelId receiveAccount =>
    simp only [step, bind_eq_ok] at h
    obtain ⟨-, -, h⟩ := h
    obtain ⟨old, channel, -, rfl⟩ := updateChannelReceiveAccount_ok h
    exact Or.inr ⟨⟨rfl, rfl, id, Or.inl rfl⟩, .kept _⟩
  | setChannelCommissionToken origin channelId vtoken rate =>
    simp only [step, bind_eq_ok] at h
    obtain ⟨-, -, h⟩ := h
    obtain ⟨rates, rfl⟩ := setChannelCommissionToken_ok h
    exact Or.inr ⟨⟨rfl, rfl, id, Or.inl rfl⟩, .kept _⟩
  | setCommissionTokens origin vtoken commissionToken =>
    simp only [step, bind_eq_ok] at h
    obtain ⟨-, -, h⟩ := h
    obtain ⟨hv, rfl⟩ := setCommissionTokens_ok h
    refine Or.inr ?_
    cases commissionToken with
    | none =>
      refine ⟨⟨rfl, rfl, removeVtoken_keyed, Or.inl rfl⟩, ?_⟩
      rw [Option.elim_none, removeVtoken_pool]
      split
      · rename_i heq
        subst heq
        exact .voided origin
      · exact .kept _
    | some token' =>
      refine ⟨⟨rfl, rfl, configured_keyed hv, Or.inl rfl⟩, ?_⟩
      rw [Option.elim_some, configured_pool]
      split
      · rename_i heq
        subst heq
        exact .recounted origin token'
      · exact .kept _
  | claimCommissions origin channelId =>
    simp only [step, bind_eq_ok] at h
    obtain ⟨-, -, h⟩ := h
    obtain ⟨minting, claimable, -, rfl⟩ := settleChannelCommission_ok h
    exact Or.inr ⟨⟨rfl, rfl, id, Or.inl rfl⟩, .kept _⟩
  | setChannelVtokenShares origin channelId vtoken shares =>
    simp only [step, bind_eq_ok] at h
    obtain ⟨-, -, h⟩ := h
    obtain ⟨-, -, -, rfl⟩ := setChannelVtokenShares_ok h
    exact Or.inr ⟨⟨rfl, rfl, id, Or.inl rfl⟩, .kept _⟩
  | mint channelId vtoken amount =>
    obtain ⟨-, rfl⟩ := mint_ok h
    exact Or.inr ⟨⟨rfl, rfl, id, Or.inl rfl⟩, .kept _⟩
  | redeem vtoken amount =>
    obtain ⟨-, rfl⟩ := redeem_ok h
    exact Or.inr ⟨⟨rfl, rfl, id, Or.inl rfl⟩, .kept _⟩
  | recordHostingFee stakingToken amount =>
    rcases recordHostingFee_ok h with rfl | ⟨token', vtokenAmount, hle, rfl⟩
    · exact Or.inr ⟨⟨rfl, rfl, id, Or.inl rfl⟩, .kept _⟩
    · refine Or.inr ⟨⟨rfl, rfl, id, Or.inl rfl⟩, ?_⟩
      rw [feeRecorded_pool]
      split
      · rename_i heq
        subst heq
        exact .recorded stakingToken amount vtokenAmount hle
      · exact .kept _
  | endBlock enough =>
    simp only [step, pure_eq_ok] at h
    exact Or.inl ⟨enough, rfl, h.symm⟩
  | outside minting =>
    simp only [step, pure_eq_ok] at h
    subst h
    exact Or.inr ⟨⟨rfl, rfl, id, Or.inl rfl⟩, .kept _⟩

/-! The end of a block. -/

theorem onIdle_keyed (hs : s.Keyed) : s.onIdle.Keyed := by
  rcases s.onIdle_cases with ⟨-, hidle⟩ | ⟨-, hidle⟩ | ⟨-, hidle⟩ | ⟨-, hidle⟩
  · obtain ⟨snapshots, henv, hget⟩ := setClearingEnvironment_eq hs
    rw [hidle, henv]
    intro v hsome
    have hv : ((s.vtokenIssuanceSnapshots.get v).map
        fun issuance => (issuance.2, s.minting.vtokenIssuance v)).isSome = true := hget v ▸ hsome
    rw [Option.isSome_map] at hv
    exact hs v hv
  · obtain ⟨claimable, cleared, history, hclear⟩ :=
      clearChannelCommissions_eq (s.offset - 1) s
    obtain ⟨shares, failures, hupdate⟩ := updateChannelVtokenShares_eq (s.offset - 1)
      (s.clearChannelCommissions (s.offset - 1))
    rw [hidle, hupdate, hclear]
    exact hs
  · obtain ⟨cleared, history, ledger, hclear⟩ := clearBifrostCommissions_eq s
    rw [hidle, hclear]
    exact hs
  · rw [hidle]
    exact hs

theorem onIdle_recorded (hs : s.Keyed) : (s.onIdle.pool token).recorded =
    (s.pool token).recorded := by
  rcases s.onIdle_cases with ⟨-, hidle⟩ | ⟨-, hidle⟩ | ⟨-, hidle⟩ | ⟨-, hidle⟩
  · obtain ⟨snapshots, henv, -⟩ := setClearingEnvironment_eq hs
    rw [hidle, henv]
    rfl
  · rw [hidle, updateChannelVtokenShares_pool]
    exact (clearChannelCommissions_records (s.offset - 1)).recorded
  · rw [hidle]
    exact clearBifrost_records.recorded
  · rw [hidle]

theorem onIdle_covered (hkeyed : s.Keyed) (hcovered : (s.pool token).Covered u128Max wholeParts)
    (hchannel : s.ChannelBlock →
      (s.pool token).Fits wholeParts (s.partsTaken (s.offset - 1) token))
    (hfinal : s.FinalBlock → ComesOnce s.listed token (s.pool token)) :
    (s.onIdle.pool token).Covered u128Max wholeParts := by
  rcases s.onIdle_cases with ⟨-, hidle⟩ | ⟨hblock, hidle⟩ | ⟨hblock, hidle⟩ | ⟨-, hidle⟩
  · obtain ⟨snapshots, henv, -⟩ := setClearingEnvironment_eq hkeyed
    rw [hidle, henv, shiftPeriod_pool]
    exact hcovered.begin
  · rw [hidle, updateChannelVtokenShares_pool]
    exact clearChannelCommissions_covered _ hcovered (hchannel hblock)
  · rw [hidle]
    exact clearBifrost_covered hcovered (hfinal hblock)
  · rw [hidle]
    exact hcovered

theorem endBlock_pool (enough : Bool) :
    (s.endBlock enough).pool token = if enough then s.onIdle.pool token else s.pool token := by
  cases enough with
  | false => rfl
  | true => rfl

theorem endBlock_keyed (enough : Bool) (hs : s.Keyed) : (s.endBlock enough).Keyed := by
  cases enough with
  | false => exact hs
  | true => exact onIdle_keyed hs

/-! Pools stay covered. -/

/-- Snapshots are of vTokens, and what the pool of the token pays is covered. -/
structure Backed (token : CurrencyId) (s : State cfg) : Prop where
  keyed : s.Keyed
  covered : (s.pool token).Covered u128Max wholeParts

theorem step_backed [DecidableEq AccountId] {call : Call cfg} (hs : Backed token s)
    (hok : ClearsOnce token s call) (h : step s call = .ok s') : Backed token s' := by
  rcases step_cases token h with ⟨enough, rfl, rfl⟩ | ⟨hclock, hmove⟩
  · refine ⟨endBlock_keyed enough hs.keyed, ?_⟩
    rw [endBlock_pool]
    split
    · rename_i henough
      obtain ⟨hchannel, hfinal⟩ := hok henough
      exact onIdle_covered hs.keyed hs.covered hchannel hfinal
    · exact hs.covered
  · refine ⟨hclock.keyed hs.keyed, ?_⟩
    generalize s'.pool token = p at hmove
    cases hmove with
    | kept => exact hs.covered
    | recorded stakingToken fee amount hle => exact hs.covered.record hle
    | recounted origin commissionToken => exact hs.covered.recount (hok rfl)
    | voided origin => exact hs.covered.void

theorem start_backed (minting : VtokenMinting.State cfg.minting) (blockNumber : ℕ) :
    Backed token (State.start cfg minting blockNumber) :=
  ⟨fun _ h => by simp [State.start] at h, Pool.covered_empty _ _⟩

/-! Rounds are paid out. -/

/-- The round is not over: its blocks are still to come, or do not fit in the period. -/
def State.Underway (s : State cfg) : Prop :=
  cfg.clearingDuration ≤ s.channelNextId + 1 ∨
    (1 ≤ s.offset ∧ s.offset ≤ s.channelNextId + 1)

structure Progress (token : CurrencyId) (s : State cfg) : Prop where
  next_le : s.channelNextId ≤ u32Max
  collected_eq : (s.pool token).collected = (s.pool token).pending
  served : s.steady = true →
    (s.pool token).Settled ∨ ((s.pool token).Running ∧ s.Underway)

theorem offset_succ (h : s'.blockNumber = s.blockNumber + 1) :
    s'.offset = if s.offset + 1 = cfg.clearingDuration then 0 else s.offset + 1 := by
  have hnext : s'.offset = (s.offset + 1) % cfg.clearingDuration := by
    rw [State.offset, h]
    exact (Nat.mod_add_mod _ _ _).symm
  have hlt : s.offset < cfg.clearingDuration := Nat.mod_lt _ cfg.clearingDuration_pos
  rw [hnext]
  split
  · rename_i hlast
    rw [hlast, Nat.mod_self]
  · exact Nat.mod_eq_of_lt (by omega)

theorem offset_endBlock (enough : Bool) : (s.endBlock enough).offset =
    if s.offset + 1 = cfg.clearingDuration then 0 else s.offset + 1 := by
  apply offset_succ
  cases enough with
  | false => rfl
  | true => rfl

theorem wrappingAdd_one_le (n : ℕ) : U32.wrappingAdd n 1 ≤ n + 1 := Nat.mod_le _ _

theorem wrappingAdd_one_eq {n : ℕ} (h : n < u32Max) : U32.wrappingAdd n 1 = n + 1 := by
  unfold U32.wrappingAdd
  unfold u32Max at h
  exact Nat.mod_eq_of_lt (by omega)

theorem onIdle_next (hs : s.Keyed) : s.onIdle.channelNextId = s.channelNextId := by
  rcases s.onIdle_cases with ⟨-, hidle⟩ | ⟨-, hidle⟩ | ⟨-, hidle⟩ | ⟨-, hidle⟩
  · obtain ⟨snapshots, henv, -⟩ := setClearingEnvironment_eq hs
    rw [hidle, henv]
    rfl
  · obtain ⟨claimable, cleared, history, hclear⟩ := clearChannelCommissions_eq (s.offset - 1) s
    obtain ⟨shares, failures, hupdate⟩ := updateChannelVtokenShares_eq (s.offset - 1)
      (s.clearChannelCommissions (s.offset - 1))
    rw [hidle, hupdate, hclear]
  · obtain ⟨cleared, history, ledger, hclear⟩ := clearBifrostCommissions_eq s
    rw [hidle, hclear]
  · rw [hidle]

theorem onIdle_steady (h : s.offset ≠ 0) : s.onIdle.steady = s.steady := by
  rcases s.onIdle_cases with ⟨h0, -⟩ | ⟨-, hidle⟩ | ⟨-, hidle⟩ | ⟨-, hidle⟩
  · exact absurd h0 h
  · obtain ⟨claimable, cleared, history, hclear⟩ := clearChannelCommissions_eq (s.offset - 1) s
    obtain ⟨shares, failures, hupdate⟩ := updateChannelVtokenShares_eq (s.offset - 1)
      (s.clearChannelCommissions (s.offset - 1))
    rw [hidle, hupdate, hclear]
  · obtain ⟨cleared, history, ledger, hclear⟩ := clearBifrostCommissions_eq s
    rw [hidle, hclear]
  · rw [hidle]

theorem underway_endBlock (hkeyed : s.Keyed) (enough : Bool)
    (h : cfg.clearingDuration ≤ s.channelNextId + 1 ∨ s.offset < s.channelNextId + 1) :
    (s.endBlock enough).Underway := by
  have hnext : (s.endBlock enough).channelNextId = s.channelNextId := by
    cases enough with
    | false => rfl
    | true => exact onIdle_next hkeyed
  unfold State.Underway
  rw [hnext, offset_endBlock]
  split
  · omega
  · omega

theorem onIdle_progress (hs : Backed token s) (hp : Progress token s)
    (hfirst : s.offset = 0 → (s.pool token).counted = 0 ∨ (s.pool token).collected = 0)
    (hchannel : s.ChannelBlock →
      (s.pool token).Fits wholeParts (s.partsTaken (s.offset - 1) token) ∧
      s.claimable (s.offset - 1) token + s.creditDue (s.offset - 1) token ≤ u128Max)
    (hfinal : s.FinalBlock → ComesOnce s.listed token (s.pool token) ∧
      (0 < (s.pool token).last → (s.pool token).closed = false →
        token ∈ s.listed ∧ s.Payable token)) : Progress token (s.endBlock true) := by
  have hblocks := wrappingAdd_one_le s.channelNextId
  have hlt : s.offset < cfg.clearingDuration := Nat.mod_lt _ cfg.clearingDuration_pos
  have hnext : (s.endBlock true).channelNextId = s.channelNextId := onIdle_next hs.keyed
  have hpool : (s.endBlock true).pool token = s.onIdle.pool token := rfl
  have hsteady : (s.endBlock true).steady = s.onIdle.steady := rfl
  refine ⟨hnext ▸ hp.next_le, ?_, ?_⟩
  · rw [hpool]
    rcases s.onIdle_cases with ⟨-, hidle⟩ | ⟨-, hidle⟩ | ⟨-, hidle⟩ | ⟨-, hidle⟩
    · obtain ⟨snapshots, henv, -⟩ := setClearingEnvironment_eq hs.keyed
      rw [hidle, henv, shiftPeriod_pool]
      rfl
    · have hrecords : SameRecords (s.pool token)
          ((s.clearChannelCommissions (s.offset - 1)).pool token) :=
        clearChannelCommissions_records (s.offset - 1)
      obtain ⟨-, hcollected, hpending⟩ := hrecords
      rw [hidle, updateChannelVtokenShares_pool, hcollected, hpending]
      exact hp.collected_eq
    · have hrecords : SameRecords (s.pool token)
          ((s.listed.foldl State.clearBifrostCommission s).pool token) := clearBifrost_records
      obtain ⟨-, hcollected, hpending⟩ := hrecords
      have hidle' : s.onIdle = s.listed.foldl State.clearBifrostCommission s := hidle
      rw [hidle', hcollected, hpending]
      exact hp.collected_eq
    · rw [hidle]
      exact hp.collected_eq
  · intro hnow
    rw [hpool]
    rcases s.onIdle_cases with ⟨h0, hidle⟩ | ⟨hblock, hidle⟩ | ⟨hblock, hidle⟩ | ⟨hpast, hidle⟩
    · obtain ⟨snapshots, henv, -⟩ := setClearingEnvironment_eq hs.keyed
      rw [hidle, henv, shiftPeriod_pool]
      have hunderway := underway_endBlock hs.keyed true (Or.inr (by omega))
      rcases Pool.settled_or_running_begin hp.collected_eq (hfirst h0) with h | h
      · exact Or.inl h
      · exact Or.inr ⟨h, hunderway⟩
    · obtain ⟨hfits, hroom⟩ := hchannel hblock
      obtain ⟨hsettled, hrunning⟩ := clearChannelCommissions_served _ hs.covered hfits hroom
      rw [hsteady, onIdle_steady hblock.1] at hnow
      rw [hidle, updateChannelVtokenShares_pool]
      have hoffset := hblock.2
      have hunderway := underway_endBlock hs.keyed true (Or.inr (by omega))
      rcases hp.served hnow with h | ⟨h, -⟩
      · exact Or.inl (hsettled h)
      · exact Or.inr ⟨hrunning h, hunderway⟩
    · obtain ⟨honce, hpayable⟩ := hfinal hblock
      rw [hsteady, onIdle_steady hblock.1] at hnow
      rw [hidle]
      refine Or.inl (clearBifrost_settled hs.covered honce ?_)
      rcases hp.served hnow with h | ⟨h, -⟩
      · exact Or.inl h
      · obtain ⟨hlisted, hcan⟩ := hpayable h.last_pos h.closed_eq
        exact Or.inr ⟨h, List.count_pos_iff.mpr hlisted, hcan⟩
    · rw [hidle]
      rw [hsteady, onIdle_steady (by omega)] at hnow
      rcases hp.served hnow with h | ⟨h, hunderway⟩
      · exact Or.inl h
      · refine Or.inr ⟨h, underway_endBlock hs.keyed true ?_⟩
        -- With fewer channels than ids the blocks of the round would all have passed.
        rcases Nat.lt_or_ge s.channelNextId u32Max with hids | hids
        · rw [wrappingAdd_one_eq hids] at hpast
          unfold State.Underway at hunderway
          omega
        · have hperiod := cfg.clearingDuration_le
          omega

theorem Progress.move {call : Call cfg} (hp : Progress token s) (hclock : SameClock s call s')
    (hserves : Serves token s call)
    (hcollected : (s'.pool token).collected = (s'.pool token).pending)
    (hsettled : (s.pool token).Settled → (s'.pool token).Settled)
    (hrunning : (s.pool token).Running → (s'.pool token).Running) : Progress token s' := by
  have hnext : s.channelNextId ≤ s'.channelNextId ∧ s'.channelNextId ≤ u32Max := by
    have hle := hp.next_le
    rcases hclock.next with heq | ⟨origin, channelName, receiveAccount, rfl, heq⟩
    · omega
    · have hlt : s.channelNextId < u32Max := hserves
      have hadd := wrappingAdd_one_eq hlt
      omega
  have hoffset : s'.offset = s.offset := by
    simp only [State.offset, hclock.blockNumber]
  refine ⟨hnext.2, hcollected, fun hsteady => ?_⟩
  rw [hclock.steady] at hsteady
  rcases hp.served hsteady with h | ⟨h, hunderway⟩
  · exact Or.inl (hsettled h)
  · refine Or.inr ⟨hrunning h, ?_⟩
    unfold State.Underway at hunderway ⊢
    rw [hoffset]
    omega

theorem step_progress [DecidableEq AccountId] {call : Call cfg} (hs : Backed token s)
    (hp : Progress token s) (hok : ClearsOnce token s call) (hserves : Serves token s call)
    (h : step s call = .ok s') : Progress token s' := by
  rcases step_cases token h with ⟨enough, rfl, rfl⟩ | ⟨hclock, hmove⟩
  · cases enough with
    | false => exact ⟨hp.next_le, hp.collected_eq, fun hsteady => by cases hsteady⟩
    | true =>
      obtain ⟨hfits, honce⟩ := hok rfl
      obtain ⟨hfirst, hroom, hpayable⟩ := hserves rfl
      exact onIdle_progress hs hp hfirst (fun hblock => ⟨hfits hblock, hroom hblock⟩)
        fun hblock => ⟨honce hblock, hpayable hblock⟩
  · have hcollected := hp.collected_eq
    generalize hpool : s'.pool token = p at hmove
    cases hmove with
    | kept =>
      apply hp.move hclock hserves
      · rw [hpool]
        exact hcollected
      · rw [hpool]
        exact id
      · rw [hpool]
        exact id
    | recorded stakingToken fee amount hle =>
      apply hp.move hclock hserves
      · rw [hpool]
        simp only [Pool.record]
        omega
      · rw [hpool]
        exact fun h => h.record amount
      · rw [hpool]
        exact fun h => h.record amount
    | recounted origin commissionToken =>
      apply hp.move hclock hserves
      · rw [hpool]
        exact hcollected
      · rw [hpool]
        exact fun h => h.recount
      · rw [hpool]
        exact fun h => h.recount (hok rfl)
    | voided origin =>
      obtain ⟨hnothing, hover⟩ := hserves rfl
      apply hp.move hclock hserves
      · rw [hpool]
        simp only [Pool.void]
        omega
      · rw [hpool]
        exact fun h => h.void
      · intro hrunning
        rcases hover with hclosed | hnone
        · rw [hrunning.closed_eq] at hclosed
          contradiction
        · have hpos := hrunning.last_pos
          omega

theorem start_progress (minting : VtokenMinting.State cfg.minting) (blockNumber : ℕ) :
    Progress token (State.start cfg minting blockNumber) :=
  ⟨Nat.zero_le _, rfl, fun h => by cases h⟩

theorem Backed.conserved (h : Backed token s) : Conserved token s := h.covered.paid_le

theorem Progress.distributed (hp : Progress token s) (hs : Backed token s) :
    Distributed token s := by
  intro hsteady hoffset hlong
  rcases hp.served hsteady with h | ⟨-, hunderway⟩
  · have hspent := h.1
    have hopening := hs.covered.opening_le
    simp only [Pool.spent, State.pool] at hspent hopening
    omega
  · unfold State.Underway at hunderway
    omega

/-- In a run whose calls take from the pool of a token only what its rounds have left, no more is
credited and sent than was recorded; and where moreover the calls keep no round from being paid
out, every period in whose blocks the hook ran distributes what was recorded before it. -/
theorem commissions_conserved [DecidableEq AccountId] (token : CurrencyId)
    (minting : VtokenMinting.State cfg.minting) (blockNumber : ℕ) (calls : List (Call cfg))
    (hcalls : Meets step (ClearsOnce token) (State.start cfg minting blockNumber) calls) :
    Always step (Conserved token) (State.start cfg minting blockNumber) calls ∧
      (Meets step (Serves token) (State.start cfg minting blockNumber) calls →
        Always step (Distributed token) (State.start cfg minting blockNumber) calls) := by
  have hbacked (s : State cfg) (call : Call cfg) (s' : State cfg) (hs : Backed token s)
      (hok : ClearsOnce token s call) (h : step s call = .ok s') : Backed token s' :=
    step_backed hs hok h
  have hprogress (s : State cfg) (call : Call cfg) (s' : State cfg)
      (hs : Backed token s ∧ Progress token s)
      (hok : ClearsOnce token s call ∧ Serves token s call) (h : step s call = .ok s') :
      Backed token s' ∧ Progress token s' :=
    ⟨step_backed hs.1 hok.1 h, step_progress hs.1 hs.2 hok.1 hok.2 h⟩
  refine ⟨?_, fun hserves => ?_⟩
  · exact (always_of_meets hbacked calls (start_backed minting blockNumber) hcalls).imp
      fun s hs => hs.conserved
  · have hboth := hcalls.and hserves
    exact (always_of_meets hprogress calls ⟨start_backed minting blockNumber,
      start_progress minting blockNumber⟩ hboth).imp fun s hs => hs.2.distributed hs.1

namespace Sample

open VtokenMinting (vEth hpEth)

/-- A clearing period of three blocks: one channel fits. -/
def config : Config ℕ where
  minting := VtokenMinting.Sample.config
  clearingDuration := 3
  clearingDuration_pos := by decide
  clearingDuration_le := by decide
  nameLengthLimit := 8
  account := 200
  bifrostCommissionReceiver := 201
  iter := Table.entries
  iter_perm := fun _ => List.Perm.refl _

def balances : Tokens.Accounts ℕ := fun c x => if c = vEth ∧ x = 200 then 1000 else 0

def start : State config := State.start config (VtokenMinting.genesis config.minting balances) 0

def control : Origin := ⟨true, false⟩

def cleared : List (Call config) :=
  [.registerChannel control [] 7, .mint none vEth 1000,
    .setCommissionTokens control vEth (some vEth),
    .setChannelVtokenShares control 0 vEth (Permill.fromPercent 50),
    .recordHostingFee hpEth 100, .endBlock true, .endBlock true, .endBlock true]

def shared : List (Call config) :=
  [.setCommissionTokens control vEth (some vEth),
    .setCommissionTokens control (.vToken2 16) (some vEth),
    .recordHostingFee hpEth 100, .endBlock true, .endBlock true]

theorem payable {s : State config} (hfunds : s.bifrostCommission token ≤ s.minting.ledger token 200)
    (hdeposit : 10 ≤ s.bifrostCommission token) : s.Payable token := by
  intro L hL
  have hpayer : L token 200 = s.minting.ledger token 200 := hL 200
  have hlow : ¬ L token 200 < s.bifrostCommission token := by omega
  have hsmall : ¬ L token 201 + s.bifrostCommission token < 10 := by omega
  have hmoves : ¬ (s.bifrostCommission token = 0 ∨ (200 : ℕ) = 201) := by omega
  refine ⟨_, (if_neg hmoves).trans ((if_neg hlow).trans (if_neg hsmall))⟩

end Sample

theorem commissions_conserved_sample :
    Always step (Conserved VtokenMinting.vEth) Sample.start Sample.cleared ∧
      Always step (Distributed VtokenMinting.vEth) Sample.start Sample.cleared ∧
      let s := run step Sample.start Sample.cleared
      ((s.history VtokenMinting.vEth).credited, (s.history VtokenMinting.vEth).sent) = (10, 90) := by
  obtain ⟨hconserved, hdistributed⟩ := commissions_conserved VtokenMinting.vEth
    (VtokenMinting.genesis Sample.config.minting Sample.balances) 0 Sample.cleared (by decide)
  have hid : (0 : ℕ) < u32Max := by decide
  refine ⟨hconserved, hdistributed ⟨fun _ _ => hid, fun _ _ => trivial, fun _ _ => trivial,
    fun _ _ => trivial, fun _ _ => trivial, ?_, ?_, ?_, trivial⟩, by decide⟩
  · exact fun _ _ _ => ⟨by decide, by decide, fun hfinal => absurd hfinal (by decide)⟩
  · exact fun _ _ _ => ⟨by decide, by decide, fun hfinal => absurd hfinal (by decide)⟩
  · refine fun _ _ _ => ⟨by decide, by decide, fun _ _ _ => ⟨by decide, ?_⟩⟩
    exact Sample.payable (by decide) (by decide)

/-- Two vTokens share a token: the final block pays its commission of 100 twice. -/
theorem shared_token_paid_twice :
    let s := run step Sample.start Sample.shared
    ((s.history VtokenMinting.vEth).recorded, (s.history VtokenMinting.vEth).sent) = (100, 200) ∧
      ¬ Conserved VtokenMinting.vEth s := by
  unfold Conserved
  decide

end Bifrost.ChannelCommission
