import Bifrost.ChannelCommission.Conservation
import Bifrost.Lib.Proportion
import Bifrost.Lib.Sums

/-!
# Shares stay within the whole

A share is recomputed in its channel's block: what the channel held of the old issuance, and its
part of the net mints, over the new issuance. All shares together stay within one as long as the
mints of a period lie between the two issuances it is measured by. A vToken that is configured
after mints of the period were recorded breaks this: the mints are in its first issuance already.
-/

namespace Bifrost.ChannelCommission

open Result Machine
set_option autoImplicit false

variable {AccountId : Type} {cfg : Config AccountId} {s s' : State cfg} {v : CurrencyId} {id : ℕ}
  {p : Permill}

namespace State

variable (s : State cfg)

def updatedShare (channelId : ℕ) (vtoken : CurrencyId) (share : Permill) : Permill :=
  if s.Grew vtoken then s.newShare channelId vtoken share else share

/-- The share as it will be when the clearing is over. -/
def finalShare (channelId : ℕ) (vtoken : CurrencyId) : ℕ :=
  ((s.channelVtokenShares channelId).get vtoken).elim 0 fun share =>
    (if s.offset = 0 ∨ channelId + 1 < s.offset then share
      else s.updatedShare channelId vtoken share).parts

/-- The recorded mints of a channel that is registered. -/
def mintOf (period : ℕ × ℕ → ℕ) (channelId : ℕ) (vtoken : CurrencyId) : ℕ :=
  if (s.channels.get channelId).isSome then period (s.periodChannelVtokenMint channelId vtoken)
  else 0

/-- No channel's block is to come in this period. -/
def Outside : Prop := s.offset = 0 ∨ s.channelNextId < s.offset

instance : Decidable s.Outside := inferInstanceAs (Decidable (_ ∨ _))

end State

/-! The block of a channel. -/

theorem shareNumerator_le (channelId : ℕ) (share : Permill) :
    s.shareNumerator channelId v share ≤
      Proportion.part share.parts Permill.accuracy (s.snapshot v).1 +
        Proportion.part (s.periodChannelVtokenMint channelId v).1 (s.periodVtokenTotalMint v).1
          ((s.periodVtokenTotalMint v).1 - (s.periodVtokenTotalRedeem v).1) := by
  unfold State.shareNumerator Proportion.part
  have hold : share.mulFloor (s.snapshot v).1 =
      share.parts * (s.snapshot v).1 / Permill.accuracy := by
    unfold Permill.mulFloor
    rw [Nat.mul_comm]
  rw [hold]
  refine (Nat.mod_le _ _).trans (Nat.add_le_add_left ?_ _)
  split
  · exact Nat.zero_le _
  · rename_i hmint
    unfold calculateMulDivResult U128.mulDiv
    rw [if_neg hmint, if_neg hmint]
    split
    · exact Nat.le_refl _
    · exact Nat.zero_le _

theorem newShare_le (channelId : ℕ) (share : Permill) :
    (s.newShare channelId v share).parts ≤
      Proportion.part (s.shareNumerator channelId v share) (s.snapshot v).2 Permill.accuracy := by
  unfold State.newShare Permill.fromRationalDown Proportion.part
  split
  · exact Nat.zero_le _
  · split
    · exact Nat.zero_le _
    · simp only [Option.getD_some]
      rw [Nat.mul_comm]

theorem not_shareFails {channelId : ℕ} {share : Permill}
    (h : s.shareNumerator channelId v share ≤ (s.snapshot v).2) :
    ¬ s.ShareFails channelId v share := by
  rintro ⟨hissuance, hfails⟩
  unfold Permill.fromRationalDown at hfails
  rw [dif_neg (by omega)] at hfails
  contradiction

theorem updateChannelVtoken_ne (channelId : ℕ) {e : CurrencyId × Permill} (h : e.1 ≠ v) :
    ((State.updateChannelVtoken channelId s e).channelVtokenShares channelId).get v =
        (s.channelVtokenShares channelId).get v ∧
      (State.updateChannelVtoken channelId s e).failures v = s.failures v := by
  unfold State.updateChannelVtoken
  split
  · simp only [Function.update_self, Table.get_write_ne _ _ h.symm,
      Function.update_of_ne h.symm, and_self]
  · exact ⟨rfl, rfl⟩

theorem updateChannelVtoken_reads (channelId : ℕ) (e : CurrencyId × Permill) :
    (State.updateChannelVtoken channelId s e).updatedShare = s.updatedShare ∧
      (State.updateChannelVtoken channelId s e).ShareFails = s.ShareFails ∧
      (State.updateChannelVtoken channelId s e).Grew = s.Grew := by
  unfold State.updateChannelVtoken
  split
  · exact ⟨rfl, rfl, rfl⟩
  · exact ⟨rfl, rfl, rfl⟩

theorem updateChannelVtokens_notMem (channelId : ℕ) {l : List (CurrencyId × Permill)}
    (h : v ∉ l.map Prod.fst) (s : State cfg) :
    ((l.foldl (State.updateChannelVtoken channelId) s).channelVtokenShares channelId).get v =
        (s.channelVtokenShares channelId).get v ∧
      (l.foldl (State.updateChannelVtoken channelId) s).failures v = s.failures v := by
  induction l generalizing s with
  | nil => exact ⟨rfl, rfl⟩
  | cons e l ih =>
    rw [List.map_cons, List.mem_cons, not_or] at h
    obtain ⟨hget, hfailures⟩ := ih h.2 (State.updateChannelVtoken channelId s e)
    obtain ⟨hget', hfailures'⟩ := updateChannelVtoken_ne (s := s) channelId (Ne.symm h.1)
    exact ⟨hget.trans hget', hfailures.trans hfailures'⟩

theorem updateChannelVtokens_mem {channelId : ℕ} {l : List (CurrencyId × Permill)}
    (hl : (l.map Prod.fst).Nodup) (hmem : (v, p) ∈ l) (s : State cfg)
    (hp : (s.channelVtokenShares channelId).get v = some p) :
    ((l.foldl (State.updateChannelVtoken channelId) s).channelVtokenShares channelId).get v =
        some (s.updatedShare channelId v p) ∧
      ((s.Grew v → ¬ s.ShareFails channelId v p) →
        (l.foldl (State.updateChannelVtoken channelId) s).failures v = s.failures v) := by
  induction l generalizing s with
  | nil => exact absurd hmem List.not_mem_nil
  | cons e l ih =>
    rw [List.map_cons, List.nodup_cons] at hl
    rw [List.foldl_cons]
    rcases List.mem_cons.mp hmem with rfl | hrest
    · obtain ⟨hget, hfailures⟩ :=
        updateChannelVtokens_notMem channelId hl.1 (State.updateChannelVtoken channelId s (v, p))
      rw [hget, hfailures]
      unfold State.updateChannelVtoken State.updatedShare
      split
      · rename_i hgrew
        simp only [Function.update_self, Table.get_write_self, true_and]
        intro hworks
        rw [if_neg (hworks hgrew)]
        rfl
      · exact ⟨hp, fun _ => rfl⟩
    · have hne : e.1 ≠ v := by
        rintro rfl
        exact hl.1 (List.mem_map.mpr ⟨(e.1, p), hrest, rfl⟩)
      obtain ⟨hget, hfailures⟩ := updateChannelVtoken_ne (s := s) channelId hne
      obtain ⟨hupdated, hfails, hgrew⟩ := updateChannelVtoken_reads (s := s) channelId e
      rw [← hget] at hp
      have hall := ih hl.2 hrest (State.updateChannelVtoken channelId s e) hp
      rw [hupdated, hfails, hgrew, hfailures] at hall
      exact hall

theorem updateChannelVtokenShares_get (channelId : ℕ) (s : State cfg) :
    (∀ id, ((s.updateChannelVtokenShares channelId).channelVtokenShares id).get v =
      if id = channelId then
        ((s.channelVtokenShares channelId).get v).map (s.updatedShare channelId v)
      else (s.channelVtokenShares id).get v) ∧
    ((∀ p, (s.channelVtokenShares channelId).get v = some p → s.Grew v →
      ¬ s.ShareFails channelId v p) →
      (s.updateChannelVtokenShares channelId).failures v = s.failures v) := by
  have hnodup : ((cfg.iter (s.channelVtokenShares channelId)).map Prod.fst).Nodup :=
    iter_keys_nodup _
  have hothers : ∀ id, id ≠ channelId →
      (s.updateChannelVtokenShares channelId).channelVtokenShares id =
        s.channelVtokenShares id := by
    intro id hid
    obtain ⟨shares, failures, heq⟩ := updateChannelVtokenShares_eq channelId s
    rw [heq]
    exact Function.update_of_ne hid _ _
  cases hp : (s.channelVtokenShares channelId).get v with
  | none =>
    have hmem : v ∉ (cfg.iter (s.channelVtokenShares channelId)).map Prod.fst := by
      rw [mem_iter_keys, hp]
      exact Bool.false_ne_true
    obtain ⟨hget, hfailures⟩ := updateChannelVtokens_notMem channelId hmem s
    refine ⟨fun id => ?_, fun _ => hfailures⟩
    split
    · rename_i hid
      rw [hid]
      exact hget.trans hp
    · rename_i hid
      rw [hothers id hid]
  | some p =>
    obtain ⟨hget, hfailures⟩ := updateChannelVtokens_mem hnodup (mem_iter.mpr hp) s hp
    refine ⟨fun id => ?_, fun hworks => hfailures (hworks p rfl)⟩
    split
    · rename_i hid
      rw [hid]
      exact hget
    · rename_i hid
      rw [hothers id hid]

/-! What holds of the shares of a vToken all along. -/

/-- The mints of the running period and of the last one lie between the issuances they are
measured by; the shares stay within one when the clearing is over. -/
structure Sound (v : CurrencyId) (s : State cfg) : Prop where
  keyed : s.Keyed
  next_lt : s.channelNextId < u32Max
  ids : ∀ id, (s.channels.get id).isSome = true → id < s.channelNextId
  entries : ∀ id p, (s.channelVtokenShares id).get v = some p →
    (s.channels.get id).isSome = true ∧ (s.vtokenIssuanceSnapshots.get v).isSome = true
  configured : (s.commissionTokens.get v).isSome = true →
    (s.vtokenIssuanceSnapshots.get v).isSome = true
  running : (s.vtokenIssuanceSnapshots.get v).isSome = true →
    (s.snapshot v).2 + (s.periodVtokenTotalMint v).2 ≤
      s.minting.vtokenIssuance v + (s.periodVtokenTotalRedeem v).2
  last : s.offset ≠ 0 → s.Grew v →
    (s.snapshot v).1 + (s.periodVtokenTotalMint v).1 ≤
        (s.snapshot v).2 + (s.periodVtokenTotalRedeem v).1 ∨
      ∀ id p, (s.channelVtokenShares id).get v = some p → s.offset ≤ id + 1 →
        p.parts = 0 ∧ (s.periodChannelVtokenMint id v).1 = 0
  lastMints : ∀ ids : Finset ℕ,
    ∑ id ∈ ids, s.mintOf Prod.fst id v ≤ (s.periodVtokenTotalMint v).1
  newMints : ∀ ids : Finset ℕ,
    ∑ id ∈ ids, s.mintOf Prod.snd id v ≤ (s.periodVtokenTotalMint v).2
  whole : ∀ ids : Finset ℕ, ∑ id ∈ ids, s.finalShare id v ≤ Permill.accuracy
  failures : s.failures v = 0

theorem mintOf_of_isSome {period : ℕ × ℕ → ℕ} (h : (s.channels.get id).isSome = true) :
    s.mintOf period id v = period (s.periodChannelVtokenMint id v) := by
  rw [State.mintOf, if_pos h]

theorem Sound.numerator_le (hs : Sound v s) (hoffset : s.offset ≠ 0) (hgrew : s.Grew v)
    (hp : (s.channelVtokenShares id).get v = some p) (hblock : s.offset ≤ id + 1) :
    s.shareNumerator id v p ≤ (s.snapshot v).2 := by
  have hle := shareNumerator_le (s := s) (v := v) id p
  rcases hs.last hoffset hgrew with hfit | hidle
  · have hold := @Proportion.part_le_pot p.parts 1000000 (s.snapshot v).1 p.le_one
    have hmint : (s.periodChannelVtokenMint id v).1 ≤ (s.periodVtokenTotalMint v).1 := by
      have hone := hs.lastMints {id}
      rw [Finset.sum_singleton, mintOf_of_isSome (hs.entries id p hp).1] at hone
      exact hone
    have hnet : Proportion.part (s.periodChannelVtokenMint id v).1 (s.periodVtokenTotalMint v).1
        ((s.periodVtokenTotalMint v).1 - (s.periodVtokenTotalRedeem v).1) ≤
          (s.periodVtokenTotalMint v).1 - (s.periodVtokenTotalRedeem v).1 :=
      Proportion.part_le_pot hmint
    unfold State.Grew at hgrew
    have haccuracy : Permill.accuracy = 1000000 := rfl
    rw [haccuracy] at hle
    omega
  · obtain ⟨hshare, hmint⟩ := hidle id p hp hblock
    rw [hshare, hmint] at hle
    simp only [Proportion.part, Nat.zero_mul, Nat.zero_div] at hle
    omega

theorem sum_newShare_le {ids : Finset ℕ} {share mint : ℕ → ℕ} {old new minted redeemed : ℕ}
    (hshare : ∑ id ∈ ids, share id ≤ Permill.accuracy) (hmint : ∑ id ∈ ids, mint id ≤ minted)
    (hgrew : redeemed < minted) (hfit : old + minted ≤ new + redeemed) :
    ∑ id ∈ ids, Proportion.part (Proportion.part (share id) Permill.accuracy old +
      Proportion.part (mint id) minted (minted - redeemed)) new Permill.accuracy ≤
        Permill.accuracy := by
  apply Proportion.sum_part_le_of_sum_le
  have hold := Proportion.sum_part_le_of_sum_le hshare old
  have hnet := Proportion.sum_part_le_of_sum_le hmint (minted - redeemed)
  rw [Finset.sum_add_distrib]
  omega

theorem updatedShare_eq_zero (hp : p.parts = 0)
    (hmint : (s.periodChannelVtokenMint id v).1 = 0) : (s.updatedShare id v p).parts = 0 := by
  unfold State.updatedShare
  split
  · have hnumerator := shareNumerator_le (s := s) (v := v) id p
    have hnew := newShare_le (s := s) (v := v) id p
    rw [hp, hmint] at hnumerator
    simp only [Proportion.part, Nat.zero_mul, Nat.zero_div] at hnumerator
    have hzero : s.shareNumerator id v p = 0 := by omega
    rw [hzero, Proportion.part, Nat.zero_mul, Nat.zero_div] at hnew
    omega
  · exact hp

/-! What is promised, and when it holds. -/

/-- Outside a clearing the shares of all channels stay within one, and none was lost in an update
that failed. -/
def Shared (v : CurrencyId) (s : State cfg) : Prop :=
  (s.Outside → ∀ ids : Finset ℕ, ∑ id ∈ ids, (s.share id v).parts ≤ Permill.accuracy) ∧
    s.failures v = 0

/-- The call keeps what a clearing compares in step: a channel starts without mints, a vToken is
configured and a share set outside a clearing, mints of the period are not in the issuance that a
vToken is configured with, and a clearing that has shares to update is not cut short. -/
def KeepsInStep (v : CurrencyId) (s : State cfg) : Call cfg → Prop
  | .registerChannel .. => s.channelNextId + 1 < u32Max ∧
    s.periodChannelVtokenMint s.channelNextId v = (0, 0)
  | .setCommissionTokens _ vtoken (some _) => vtoken = v →
    (s.periodVtokenTotalMint v).2 ≤ (s.periodVtokenTotalRedeem v).2 ∧
      (s.Outside ∨ ∀ id, id < s.channelNextId → (s.channelVtokenShares id).get v = none)
  | .setChannelVtokenShares _ _ vtoken _ => vtoken = v → s.Outside ∨ ¬ s.Grew v
  | .endBlock enough => (enough = true ∨ s.channelNextId < s.offset ∨ ¬ s.Grew v) ∧
    (s.offset ≠ 0 → s.offset + 1 = cfg.clearingDuration →
      s.channelNextId < cfg.clearingDuration ∨ ¬ s.Grew v)
  | .outside minting => minting.vtokenIssuance v = s.minting.vtokenIssuance v
  | _ => True

instance (v : CurrencyId) (s : State cfg) : ∀ call, Decidable (KeepsInStep v s call)
  | .registerChannel .. => inferInstanceAs (Decidable (_ ∧ _))
  | .setCommissionTokens _ _ (some _) => inferInstanceAs (Decidable (_ → _))
  | .setChannelVtokenShares .. => inferInstanceAs (Decidable (_ → _))
  | .endBlock _ => inferInstanceAs (Decidable (_ ∧ _))
  | .outside _ => inferInstanceAs (Decidable (_ = _))
  | .setCommissionTokens _ _ none | .removeChannel .. | .updateChannelReceiveAccount ..
  | .setChannelCommissionToken .. | .claimCommissions .. | .mint .. | .redeem ..
  | .recordHostingFee .. => .isTrue trivial

theorem finalShare_of_get (hp : (s.channelVtokenShares id).get v = some p) : s.finalShare id v =
      (if s.offset = 0 ∨ id + 1 < s.offset then p else s.updatedShare id v p).parts := by
  rw [State.finalShare, hp]
  rfl

theorem finalShare_of_none (hp : (s.channelVtokenShares id).get v = none) :
    s.finalShare id v = 0 := by
  rw [State.finalShare, hp]
  rfl

theorem finalShare_eq_share (h : s.offset = 0 ∨ id + 1 < s.offset) :
    s.finalShare id v = (s.share id v).parts := by
  unfold State.share
  cases hp : (s.channelVtokenShares id).get v with
  | none => exact finalShare_of_none hp
  | some p =>
    rw [finalShare_of_get hp, if_pos h]
    rfl

theorem Sound.lt_next (hs : Sound v s)
    (hp : (s.channelVtokenShares id).get v = some p) : id < s.channelNextId :=
  hs.ids id (hs.entries id p hp).1

theorem finalShare_eq_of_not_grew (h : ¬ s.Grew v) (id : ℕ) :
    s.finalShare id v = (s.share id v).parts := by
  unfold State.share
  cases hp : (s.channelVtokenShares id).get v with
  | none => exact finalShare_of_none hp
  | some p =>
    rw [finalShare_of_get hp, State.updatedShare, if_neg h, ite_self]
    rfl

theorem Sound.finalShare_eq (hs : Sound v s) (h : s.Outside ∨ ¬ s.Grew v) (id : ℕ) :
    s.finalShare id v = (s.share id v).parts := by
  rcases h with hout | hquiet
  · cases hp : (s.channelVtokenShares id).get v with
    | none =>
      rw [finalShare_of_none hp, State.share, hp]
      rfl
    | some p =>
      have hid := hs.lt_next hp
      apply finalShare_eq_share
      unfold State.Outside at hout
      omega
  · exact finalShare_eq_of_not_grew hquiet id

theorem Sound.shared (hs : Sound v s) : Shared v s := by
  refine ⟨fun hout ids => ?_, hs.failures⟩
  have hwhole := hs.whole ids
  simp only [hs.finalShare_eq (Or.inl hout)] at hwhole
  exact hwhole

/-! Every call but the end of a block. -/

section Register

variable {channel : Channel cfg} {rates : ℕ → CurrencyId → Percent}

theorem Sound.registered_get (hs : Sound v s)
    (hp : ((s.registered channel rates).channelVtokenShares id).get v = some p) :
    (id = s.channelNextId ∧ p = Permill.zero ∧ (s.commissionTokens.get v).isSome = true) ∨
      (id ≠ s.channelNextId ∧ (s.channelVtokenShares id).get v = some p) := by
  unfold State.registered at hp
  by_cases hid : id = s.channelNextId
  · subst hid
    have hfresh : (s.channelVtokenShares s.channelNextId).get v = none := by
      cases hp : (s.channelVtokenShares s.channelNextId).get v with
      | none => rfl
      | some p => exact absurd (hs.lt_next hp) (Nat.lt_irrefl _)
    simp only [Function.update_self, Table.get_update, hfresh] at hp
    refine Or.inl ⟨rfl, ?_⟩
    cases htoken : s.commissionTokens.get v with
    | none =>
      rw [htoken] at hp
      cases hp
    | some token =>
      rw [htoken] at hp
      exact ⟨(Option.some.inj hp).symm, rfl⟩
  · simp only [Function.update_of_ne hid] at hp
    exact Or.inr ⟨hid, hp⟩

theorem registered_isSome : ((s.registered channel rates).channels.get id).isSome = true ↔
      id = s.channelNextId ∨ (s.channels.get id).isSome = true := by
  unfold State.registered
  by_cases hid : id = s.channelNextId
  · subst hid
    simp
  · simp only [Table.get_write_ne _ _ hid, hid, false_or]

theorem registered_mintOf (hmint : s.periodChannelVtokenMint s.channelNextId v = (0, 0))
    {period : ℕ × ℕ → ℕ} (hzero : period (0, 0) = 0) (id : ℕ) :
    (s.registered channel rates).mintOf period id v ≤ s.mintOf period id v := by
  unfold State.mintOf
  simp only [registered_isSome]
  by_cases hid : id = s.channelNextId
  · subst hid
    have hnone : period ((s.registered channel rates).periodChannelVtokenMint s.channelNextId v) =
        0 := by
      rw [← hzero, ← hmint]
      rfl
    rw [hnone, ite_self]
    exact Nat.zero_le _
  · simp only [hid, false_or]
    exact Nat.le_refl _

theorem Sound.registered_finalShare (hs : Sound v s)
    (hmint : s.periodChannelVtokenMint s.channelNextId v = (0, 0)) (id : ℕ) :
    (s.registered channel rates).finalShare id v ≤ s.finalShare id v := by
  cases hp : ((s.registered channel rates).channelVtokenShares id).get v with
  | none =>
    rw [finalShare_of_none hp]
    exact Nat.zero_le _
  | some p =>
    rcases hs.registered_get hp with ⟨rfl, rfl, -⟩ | ⟨-, hold⟩
    · have hzero : ((s.registered channel rates).updatedShare s.channelNextId v
          Permill.zero).parts = 0 :=
        updatedShare_eq_zero rfl (congrArg Prod.fst hmint)
      rw [finalShare_of_get hp]
      split
      · exact Nat.zero_le _
      · omega
    · rw [finalShare_of_get hp, finalShare_of_get hold]
      exact Nat.le_refl _

theorem Sound.registered (hs : Sound v s) (hids : s.channelNextId + 1 < u32Max)
    (hmint : s.periodChannelVtokenMint s.channelNextId v = (0, 0)) :
    Sound v (s.registered channel rates) := by
  have hnext : (s.registered channel rates).channelNextId = s.channelNextId + 1 :=
    wrappingAdd_one_eq hs.next_lt
  refine ⟨hs.keyed, by rw [hnext]; exact hids, fun id hid => ?_, fun id p hp => ?_,
    hs.configured, hs.running, fun hoffset hgrew => ?_, fun ids => ?_, fun ids => ?_,
    fun ids => ?_, hs.failures⟩
  · rw [hnext]
    rcases registered_isSome.mp hid with rfl | hold
    · omega
    · have hlt := hs.ids id hold
      omega
  · rw [registered_isSome]
    rcases hs.registered_get hp with ⟨hid, -, htoken⟩ | ⟨-, hold⟩
    · exact ⟨Or.inl hid, hs.configured htoken⟩
    · exact ⟨Or.inr (hs.entries id p hold).1, (hs.entries id p hold).2⟩
  · rcases hs.last hoffset hgrew with hfit | hidle
    · exact Or.inl hfit
    · refine Or.inr fun id p hp hblock => ?_
      rcases hs.registered_get hp with ⟨rfl, rfl, -⟩ | ⟨-, hold⟩
      · exact ⟨rfl, congrArg Prod.fst hmint⟩
      · exact hidle id p hold hblock
  · exact (Finset.sum_le_sum fun id _ => registered_mintOf hmint rfl id).trans (hs.lastMints ids)
  · exact (Finset.sum_le_sum fun id _ => registered_mintOf hmint rfl id).trans (hs.newMints ids)
  · exact (Finset.sum_le_sum fun id _ => hs.registered_finalShare hmint id).trans (hs.whole ids)

end Register

section Remove

variable {channelId : ℕ} {minting : VtokenMinting.State cfg.minting}
  {claimable : ℕ → Table CurrencyId ℕ} {rates : ℕ → CurrencyId → Percent}

theorem removed_get
    (hp : ((s.removed channelId minting claimable rates).channelVtokenShares id).get v = some p) :
    id ≠ channelId ∧ (s.channelVtokenShares id).get v = some p := by
  unfold State.removed at hp
  by_cases hid : id = channelId
  · subst hid
    simp only [Function.update_self, Table.get_empty, reduceCtorEq] at hp
  · simp only [Function.update_of_ne hid] at hp
    exact ⟨hid, hp⟩

theorem removed_mint (hid : id ≠ channelId) :
    (s.removed channelId minting claimable rates).periodChannelVtokenMint id =
      s.periodChannelVtokenMint id :=
  Function.update_of_ne hid _ _

theorem removed_isSome :
    ((s.removed channelId minting claimable rates).channels.get id).isSome = true ↔
      id ≠ channelId ∧ (s.channels.get id).isSome = true := by
  unfold State.removed
  by_cases hid : id = channelId
  · subst hid
    simp
  · simp only [Table.get_write_ne _ _ hid, ne_eq, hid, not_false_eq_true, true_and]

theorem removed_mintOf {period : ℕ × ℕ → ℕ} (id : ℕ) :
    (s.removed channelId minting claimable rates).mintOf period id v ≤ s.mintOf period id v := by
  unfold State.mintOf
  simp only [removed_isSome]
  by_cases hid : id = channelId
  · simp only [hid, ne_eq, not_true_eq_false, false_and, if_false, Nat.zero_le]
  · simp only [ne_eq, hid, not_false_eq_true, true_and, removed_mint hid, Nat.le_refl]

theorem updatedShare_congr (hsnapshot : s'.snapshot v = s.snapshot v)
    (hmint : (s'.periodVtokenTotalMint v).1 = (s.periodVtokenTotalMint v).1)
    (hredeem : (s'.periodVtokenTotalRedeem v).1 = (s.periodVtokenTotalRedeem v).1)
    (hchannel : (s'.periodChannelVtokenMint id v).1 = (s.periodChannelVtokenMint id v).1)
    (p : Permill) :
    s'.updatedShare id v p = s.updatedShare id v p := by
  have hnew : s'.newShare id v p = s.newShare id v p := by
    simp only [State.newShare, State.shareNumerator, hsnapshot, hmint, hredeem, hchannel]
  have hgrew : s'.Grew v ↔ s.Grew v := by
    simp only [State.Grew, hmint, hredeem]
  simp only [State.updatedShare, hnew, hgrew]

theorem removed_finalShare (id : ℕ) :
    (s.removed channelId minting claimable rates).finalShare id v ≤ s.finalShare id v := by
  cases hp : ((s.removed channelId minting claimable rates).channelVtokenShares id).get v with
  | none =>
    rw [finalShare_of_none hp]
    exact Nat.zero_le _
  | some p =>
    obtain ⟨hid, hold⟩ := removed_get hp
    have hupdated : (s.removed channelId minting claimable rates).updatedShare id v p =
        s.updatedShare id v p := by
      apply updatedShare_congr
      · rfl
      · rfl
      · rfl
      · rw [removed_mint hid]
    rw [finalShare_of_get hp, finalShare_of_get hold, hupdated]
    exact Nat.le_refl _

theorem Sound.removed (hs : Sound v s) (hissuance : minting.vtokenIssuance = s.minting.vtokenIssuance) :
    Sound v (s.removed channelId minting claimable rates) := by
  refine ⟨hs.keyed, hs.next_lt, fun id hid => hs.ids id (removed_isSome.mp hid).2,
    fun id p hp => ?_, hs.configured, fun hsome => ?_, fun hoffset hgrew => ?_, fun ids => ?_,
    fun ids => ?_, fun ids => ?_, hs.failures⟩
  · obtain ⟨hid, hold⟩ := removed_get hp
    exact ⟨removed_isSome.mpr ⟨hid, (hs.entries id p hold).1⟩, (hs.entries id p hold).2⟩
  · have hrunning := hs.running hsome
    rw [← hissuance] at hrunning
    exact hrunning
  · rcases hs.last hoffset hgrew with hfit | hidle
    · exact Or.inl hfit
    · refine Or.inr fun id p hp hblock => ?_
      obtain ⟨hid, hold⟩ := removed_get hp
      rw [removed_mint hid]
      exact hidle id p hold hblock
  · exact (Finset.sum_le_sum fun id _ => removed_mintOf id).trans (hs.lastMints ids)
  · exact (Finset.sum_le_sum fun id _ => removed_mintOf id).trans (hs.newMints ids)
  · exact (Finset.sum_le_sum fun id _ => removed_finalShare id).trans (hs.whole ids)

end Remove

section Configure

variable {vtoken token : CurrencyId}

theorem Sound.configured_ne (hs : Sound v s) (hv : vtoken.isVtoken = true) (hne : vtoken ≠ v) :
    Sound v (s.configured vtoken token) := by
  have hsnapshot : (s.configured vtoken token).vtokenIssuanceSnapshots.get v =
      s.vtokenIssuanceSnapshots.get v := Table.get_write_ne _ _ hne.symm
  have hsame : (s.configured vtoken token).snapshot v = s.snapshot v := by
    simp only [State.snapshot, hsnapshot]
  have htoken : (s.configured vtoken token).commissionTokens.get v = s.commissionTokens.get v :=
    Table.get_write_ne _ _ hne.symm
  have hfinal (id : ℕ) : (s.configured vtoken token).finalShare id v = s.finalShare id v := by
    have hupdated (p : Permill) :
        (s.configured vtoken token).updatedShare id v p = s.updatedShare id v p :=
      updatedShare_congr hsame rfl rfl rfl p
    simp only [State.finalShare, hupdated]
    rfl
  refine ⟨configured_keyed hv hs.keyed, hs.next_lt, hs.ids, fun id p hp => ?_, ?_, ?_, ?_,
    hs.lastMints, hs.newMints, fun ids => ?_, hs.failures⟩
  · rw [hsnapshot]
    exact hs.entries id p hp
  · rw [htoken, hsnapshot]
    exact hs.configured
  · rw [hsnapshot, hsame]
    exact hs.running
  · rw [hsame]
    exact hs.last
  · simp only [hfinal]
    exact hs.whole ids

theorem Sound.configured_self (hs : Sound v s) (hv : v.isVtoken = true)
    (hmints : (s.periodVtokenTotalMint v).2 ≤ (s.periodVtokenTotalRedeem v).2)
    (hquiet : s.Outside ∨ ∀ id, id < s.channelNextId → (s.channelVtokenShares id).get v = none) :
    Sound v (s.configured v token) := by
  have hsnapshot : (s.configured v token).vtokenIssuanceSnapshots.get v =
      some (0, s.minting.vtokenIssuance v) := Table.get_write_self _ _ _
  have hpast {id : ℕ} {p : Permill} (hp : (s.channelVtokenShares id).get v = some p) :
      s.offset = 0 ∨ id + 1 < s.offset := by
    have hid := hs.lt_next hp
    rcases hquiet with hout | hnone
    · unfold State.Outside at hout
      omega
    · rw [hnone id hid] at hp
      contradiction
  refine ⟨configured_keyed hv hs.keyed, hs.next_lt, hs.ids, fun id p hp => ?_, fun _ => ?_,
    fun _ => ?_, fun hoffset _ => Or.inr fun id p hp hblock => ?_, hs.lastMints, hs.newMints,
    fun ids => ?_, hs.failures⟩
  · rw [hsnapshot]
    exact ⟨(hs.entries id p hp).1, rfl⟩
  · rw [hsnapshot]
    rfl
  · have hsame : (s.configured v token).snapshot v = (0, s.minting.vtokenIssuance v) := by
      simp only [State.snapshot, hsnapshot, Option.getD_some]
    rw [hsame]
    exact Nat.add_le_add_left hmints _
  · have hp' := hpast hp
    have hoffset' : s.offset ≠ 0 := hoffset
    have hblock' : s.offset ≤ id + 1 := hblock
    omega
  · have hfinal (id : ℕ) : (s.configured v token).finalShare id v = s.finalShare id v := by
      cases hp : (s.channelVtokenShares id).get v with
      | none =>
        have hp' : ((s.configured v token).channelVtokenShares id).get v = none := hp
        rw [finalShare_of_none hp, finalShare_of_none hp']
      | some p =>
        have hnow : (s.configured v token).offset = 0 ∨ id + 1 < (s.configured v token).offset :=
          hpast hp
        rw [finalShare_eq_share hnow, finalShare_eq_share (hpast hp)]
        rfl
    simp only [hfinal]
    exact hs.whole ids

theorem removeVtoken_get (hs : Sound v s)
    (hp : ((s.removeVtoken vtoken).channelVtokenShares id).get v = some p) :
    v ≠ vtoken ∧ (s.channelVtokenShares id).get v = some p := by
  simp only [State.removeVtoken] at hp
  split at hp
  · by_cases hv : v = vtoken
    · subst hv
      rw [Table.get_write_self] at hp
      contradiction
    · rw [Table.get_write_ne _ _ hv] at hp
      exact ⟨hv, hp⟩
  · rename_i hchannel
    exact absurd (hs.entries id p hp).1 hchannel

theorem removeVtoken_ne (hne : v ≠ vtoken) :
    (s.removeVtoken vtoken).snapshot v = s.snapshot v ∧
      (s.removeVtoken vtoken).periodVtokenTotalMint v = s.periodVtokenTotalMint v ∧
      (s.removeVtoken vtoken).periodVtokenTotalRedeem v = s.periodVtokenTotalRedeem v ∧
      ∀ id, (s.removeVtoken vtoken).periodChannelVtokenMint id v =
        s.periodChannelVtokenMint id v := by
  simp only [State.snapshot, State.removeVtoken, Table.get_write_ne _ _ hne,
    Function.update_of_ne hne, true_and]
  intro id
  split
  · rw [Function.update_of_ne hne]
  · rfl

theorem Sound.removeVtoken_self (hs : Sound v s) : Sound v (s.removeVtoken v) := by
  have hnone (id : ℕ) : ((s.removeVtoken v).channelVtokenShares id).get v = none := by
    cases hp : ((s.removeVtoken v).channelVtokenShares id).get v with
    | none => rfl
    | some p => exact absurd rfl (removeVtoken_get hs hp).1
  have hsnapshot : (s.removeVtoken v).vtokenIssuanceSnapshots.get v = none :=
    Table.get_write_self _ _ _
  have htoken : (s.removeVtoken v).commissionTokens.get v = none := Table.get_write_self _ _ _
  have hmintOf (period : ℕ × ℕ → ℕ) (hzero : period (0, 0) = 0) (id : ℕ) :
      (s.removeVtoken v).mintOf period id v = 0 := by
    unfold State.mintOf
    split
    · rename_i hchannel
      have hchannel' : (s.channels.get id).isSome = true := hchannel
      have hcleared : (s.removeVtoken v).periodChannelVtokenMint id v = (0, 0) := by
        simp only [State.removeVtoken, if_pos hchannel', Function.update_self]
      rw [hcleared, hzero]
    · rfl
  refine ⟨removeVtoken_keyed hs.keyed, hs.next_lt, hs.ids, fun id p hp => ?_, fun hsome => ?_,
    fun hsome => ?_, fun _ _ => Or.inr fun id p hp => ?_, fun ids => ?_, fun ids => ?_,
    fun ids => ?_, hs.failures⟩
  · rw [hnone id] at hp
    contradiction
  · rw [htoken] at hsome
    contradiction
  · rw [hsnapshot] at hsome
    contradiction
  · rw [hnone id] at hp
    contradiction
  · simp only [hmintOf Prod.fst rfl, Finset.sum_const_zero, Nat.zero_le]
  · simp only [hmintOf Prod.snd rfl, Finset.sum_const_zero, Nat.zero_le]
  · simp only [finalShare_of_none (hnone _), Finset.sum_const_zero, Nat.zero_le]

theorem Sound.removeVtoken_ne (hs : Sound v s) (hne : v ≠ vtoken) :
    Sound v (s.removeVtoken vtoken) := by
  obtain ⟨hsame, hmint, hredeem, hchannel⟩ := ChannelCommission.removeVtoken_ne (s := s) hne
  have hsnapshot : (s.removeVtoken vtoken).vtokenIssuanceSnapshots.get v =
      s.vtokenIssuanceSnapshots.get v := Table.get_write_ne _ _ hne
  have htoken : (s.removeVtoken vtoken).commissionTokens.get v = s.commissionTokens.get v :=
    Table.get_write_ne _ _ hne
  have hmintOf (period : ℕ × ℕ → ℕ) (id : ℕ) :
      (s.removeVtoken vtoken).mintOf period id v = s.mintOf period id v := by
    simp only [State.mintOf, hchannel]
    rfl
  have hgrew : (s.removeVtoken vtoken).Grew v ↔ s.Grew v := by
    simp only [State.Grew, hmint, hredeem]
  have hfinal (id : ℕ) :
      (s.removeVtoken vtoken).finalShare id v ≤ s.finalShare id v := by
    cases hp : ((s.removeVtoken vtoken).channelVtokenShares id).get v with
    | none =>
      rw [finalShare_of_none hp]
      exact Nat.zero_le _
    | some p =>
      have hupdated : (s.removeVtoken vtoken).updatedShare id v p = s.updatedShare id v p :=
        updatedShare_congr hsame (congrArg Prod.fst hmint) (congrArg Prod.fst hredeem)
          (congrArg Prod.fst (hchannel id)) p
      rw [finalShare_of_get hp, finalShare_of_get (removeVtoken_get hs hp).2, hupdated]
      exact Nat.le_refl _
  refine ⟨removeVtoken_keyed hs.keyed, hs.next_lt, hs.ids, fun id p hp => ?_, ?_, ?_,
    fun hoffset hnow => ?_, fun ids => ?_, fun ids => ?_, fun ids => ?_, hs.failures⟩
  · rw [hsnapshot]
    exact hs.entries id p (removeVtoken_get hs hp).2
  · rw [htoken, hsnapshot]
    exact hs.configured
  · rw [hsnapshot, hsame, hmint, hredeem]
    exact hs.running
  · rw [hsame, hmint, hredeem]
    rcases hs.last hoffset (hgrew.mp hnow) with hfit | hidle
    · exact Or.inl hfit
    · refine Or.inr fun id p hp hblock => ?_
      rw [hchannel id]
      exact hidle id p (removeVtoken_get hs hp).2 hblock
  · simp only [hmintOf, hmint]
    exact hs.lastMints ids
  · simp only [hmintOf, hmint]
    exact hs.newMints ids
  · exact (Finset.sum_le_sum fun id _ => hfinal id).trans (hs.whole ids)

end Configure

section SetShares

variable {channelId : ℕ} {vtoken : CurrencyId} {shares : Permill}

theorem checkedAdd_sum {share : ℕ → Permill} {l : List ℕ} {e : Fault} {start total : Permill}
    (h : l.foldlM (fun (total : Permill) id => okOr (total.checkedAdd (share id)) e) start =
      .ok total) : start.parts + (l.map fun id => (share id).parts).sum = total.parts := by
  induction l generalizing start with
  | nil =>
    rw [List.foldlM_nil, pure_eq_ok] at h
    rw [h]
    rfl
  | cons id l ih =>
    simp only [List.foldlM_cons, bind_eq_ok, okOr_eq_ok, Permill.checkedAdd_eq_some] at h
    obtain ⟨next, hnext, h⟩ := h
    rw [List.map_cons, List.sum_cons, ← ih h]
    omega

def State.shareSet (s : State cfg) (channelId : ℕ) (vtoken : CurrencyId) (shares : Permill) :
    State cfg :=
  { s with
    channelVtokenShares := Function.update s.channelVtokenShares channelId
      ((s.channelVtokenShares channelId).write vtoken (some shares)) }

theorem shareSet_get (id : ℕ) :
    ((s.shareSet channelId vtoken shares).channelVtokenShares id).get v =
      if id = channelId ∧ v = vtoken then some shares else (s.channelVtokenShares id).get v := by
  unfold State.shareSet
  by_cases hid : id = channelId
  · subst hid
    simp only [Function.update_self, Table.get_write, true_and]
  · simp only [Function.update_of_ne hid, hid, false_and, if_false]

theorem Sound.setChannelVtokenShares (hs : Sound v s)
    (hquiet : vtoken = v → s.Outside ∨ ¬ s.Grew v)
    (h : s.setChannelVtokenShares channelId vtoken shares = .ok s') : Sound v s' := by
  obtain ⟨hchannel, htoken, ⟨total, htotal⟩, hs'⟩ := setChannelVtokenShares_ok h
  have hset : s' = s.shareSet channelId vtoken shares := hs'
  subst hset
  by_cases hv : v = vtoken
  · subst hv
    have hentries : ∀ id p, ((s.shareSet channelId v shares).channelVtokenShares id).get v =
        some p → (s.channels.get id).isSome = true ∧
          (s.vtokenIssuanceSnapshots.get v).isSome = true := by
      intro id p hp
      rw [shareSet_get] at hp
      split at hp
      · rename_i hid
        rw [hid.1]
        exact ⟨hchannel, hs.configured htoken⟩
      · exact hs.entries id p hp
    have hshare (id : ℕ) : (s.shareSet channelId v shares).share id v =
        if id = channelId then shares else s.share id v := by
      simp only [State.share, shareSet_get, and_true]
      split
      · rfl
      · rfl
    have hout : ∀ id p, ((s.shareSet channelId v shares).channelVtokenShares id).get v = some p →
        s.offset ≠ 0 → s.Grew v → ¬ s.offset ≤ id + 1 := by
      intro id p hp hoffset hgrew hblock
      have hid := hs.ids id (hentries id p hp).1
      rcases hquiet rfl with hpast | hnot
      · unfold State.Outside at hpast
        omega
      · exact hnot hgrew
    have hfinal (id : ℕ) : (s.shareSet channelId v shares).finalShare id v =
        (if id = channelId then shares else s.share id v).parts := by
      rw [← hshare, State.share]
      cases hp : ((s.shareSet channelId v shares).channelVtokenShares id).get v with
      | none => exact finalShare_of_none hp
      | some p =>
        have hpast := hout id p hp
        rw [finalShare_of_get hp, Option.getD_some]
        split
        · rfl
        · rename_i hcond
          have hoffset : s.offset ≠ 0 := fun h0 => hcond (Or.inl h0)
          have hblock : s.offset ≤ id + 1 := by
            by_contra hlt
            exact hcond (Or.inr (Nat.lt_of_not_le hlt))
          have hstays : ¬ (s.shareSet channelId v shares).Grew v :=
            fun hgrew => hpast hoffset hgrew hblock
          unfold State.updatedShare
          rw [if_neg hstays]
    refine ⟨hs.keyed, hs.next_lt, hs.ids, hentries, hs.configured, hs.running,
      fun hoffset hgrew => Or.inr fun id p hp hblock => absurd hblock (hout id p hp hoffset hgrew),
      hs.lastMints, hs.newMints, fun ids => ?_, hs.failures⟩
    have hsum := checkedAdd_sum htotal
    have hone := total.le_one
    have hlisted : ∀ id ∈ ids, (if id = channelId then shares else s.share id v).parts ≠ 0 →
        id ∈ (cfg.iter s.channels).map Prod.fst := by
      intro id _ hne
      rw [mem_iter_keys]
      by_cases hid : id = channelId
      · exact hid ▸ hchannel
      · rw [if_neg hid, State.share] at hne
        cases hp : (s.channelVtokenShares id).get v with
        | none =>
          rw [hp] at hne
          exact absurd rfl hne
        | some p => exact (hs.entries id p hp).1
    have hle := Sums.sum_le_of_mem (iter_keys_nodup s.channels) hlisted
    simp only [hfinal]
    have haccuracy : Permill.accuracy = 1000000 := rfl
    rw [haccuracy]
    omega
  · have hget (id : ℕ) : ((s.shareSet channelId vtoken shares).channelVtokenShares id).get v =
        (s.channelVtokenShares id).get v := by
      rw [shareSet_get, if_neg fun h => hv h.2]
    have hfinal (id : ℕ) :
        (s.shareSet channelId vtoken shares).finalShare id v = s.finalShare id v := by
      unfold State.finalShare
      rw [hget id]
      rfl
    refine ⟨hs.keyed, hs.next_lt, hs.ids, fun id p hp => hs.entries id p (hget id ▸ hp),
      hs.configured, hs.running, fun hoffset hgrew => ?_, hs.lastMints, hs.newMints, fun ids => ?_,
      hs.failures⟩
    · rcases hs.last hoffset hgrew with hfit | hidle
      · exact Or.inl hfit
      · exact Or.inr fun id p hp => hidle id p (hget id ▸ hp)
    · simp only [hfinal]
      exact hs.whole ids

end SetShares

section Record

/-- An issuance, and the records of the running period. -/
def State.withRecords (s : State cfg) (minting : VtokenMinting.State cfg.minting)
    (mint redeem : CurrencyId → ℕ × ℕ) (channelMint : ℕ → CurrencyId → ℕ × ℕ) : State cfg :=
  { s with
    minting := minting
    periodVtokenTotalMint := mint
    periodVtokenTotalRedeem := redeem
    periodChannelVtokenMint := channelMint }

variable {minting : VtokenMinting.State cfg.minting} {mint redeem : CurrencyId → ℕ × ℕ}
  {channelMint : ℕ → CurrencyId → ℕ × ℕ}

theorem Sound.recorded (hs : Sound v s) (hmint : (mint v).1 = (s.periodVtokenTotalMint v).1)
    (hredeem : (redeem v).1 = (s.periodVtokenTotalRedeem v).1)
    (hchannel : ∀ id, (channelMint id v).1 = (s.periodChannelVtokenMint id v).1)
    (hbalance : s.minting.vtokenIssuance v + (s.periodVtokenTotalRedeem v).2 + (mint v).2 ≤
      minting.vtokenIssuance v + (redeem v).2 + (s.periodVtokenTotalMint v).2)
    (hsum : ∀ ids : Finset ℕ,
      ∑ id ∈ ids, (s.withRecords minting mint redeem channelMint).mintOf Prod.snd id v +
          (s.periodVtokenTotalMint v).2 ≤
        ∑ id ∈ ids, s.mintOf Prod.snd id v + (mint v).2) :
    Sound v (s.withRecords minting mint redeem channelMint) := by
  have hgrew : (s.withRecords minting mint redeem channelMint).Grew v ↔ s.Grew v := by
    simp only [State.Grew, State.withRecords, hmint, hredeem]
  have hmintOf (id : ℕ) : (s.withRecords minting mint redeem channelMint).mintOf Prod.fst id v =
      s.mintOf Prod.fst id v := by
    simp only [State.mintOf, State.withRecords, hchannel]
  have hfinal (id : ℕ) : (s.withRecords minting mint redeem channelMint).finalShare id v =
      s.finalShare id v := by
    have hsnapshot : (s.withRecords minting mint redeem channelMint).snapshot v = s.snapshot v :=
      rfl
    have hupdated (p : Permill) : (s.withRecords minting mint redeem channelMint).updatedShare id v
        p = s.updatedShare id v p := updatedShare_congr hsnapshot hmint hredeem (hchannel id) p
    unfold State.finalShare
    simp only [hupdated]
    rfl
  refine ⟨hs.keyed, hs.next_lt, hs.ids, hs.entries, hs.configured, fun hsome => ?_,
    fun hoffset hnow => ?_, fun ids => ?_, fun ids => ?_, fun ids => ?_, hs.failures⟩
  · have hrunning := hs.running hsome
    simp only [State.withRecords, State.snapshot] at hrunning ⊢
    omega
  · have hlast := hs.last hoffset (hgrew.mp hnow)
    rw [← hmint, ← hredeem] at hlast
    simp only [← hchannel] at hlast
    exact hlast
  · simp only [hmintOf]
    exact (hs.lastMints ids).trans (Nat.le_of_eq hmint.symm)
  · have hbefore := hs.newMints ids
    have hafter := hsum ids
    simp only [State.withRecords] at hafter ⊢
    omega
  · simp only [hfinal]
    exact hs.whole ids

end Record

theorem update_add_fst (f : CurrencyId → ℕ × ℕ) (vtoken : CurrencyId) (amount : ℕ) :
    (Function.update f vtoken ((f vtoken).1, (f vtoken).2 + amount) v).1 = (f v).1 := by
  rw [Function.update_apply]
  split
  · rename_i hv
    rw [hv]
  · rfl

theorem update_add_snd (f : CurrencyId → ℕ × ℕ) (vtoken : CurrencyId) (amount : ℕ) :
    (Function.update f vtoken ((f vtoken).1, (f vtoken).2 + amount) v).2 =
      (f v).2 + if v = vtoken then amount else 0 := by
  rw [Function.update_apply]
  split
  · rename_i hv
    rw [hv]
  · rfl

theorem sum_minted_le (channelId : Option ℕ) (vtoken : CurrencyId) (amount : ℕ) (s : State cfg)
    (ids : Finset ℕ) : ∑ id ∈ ids, (s.minted channelId vtoken amount).mintOf Prod.snd id v ≤
      ∑ id ∈ ids, s.mintOf Prod.snd id v + if v = vtoken then amount else 0 := by
  have hpoint (id : ℕ) : (s.minted channelId vtoken amount).mintOf Prod.snd id v ≤
      s.mintOf Prod.snd id v +
        if channelId = some id then (if v = vtoken then amount else 0) else 0 := by
    by_cases hchannel : (s.channels.get id).isSome = true
    · have hchannel' : ((s.minted channelId vtoken amount).channels.get id).isSome = true :=
        hchannel
      rw [mintOf_of_isSome hchannel, mintOf_of_isSome hchannel', State.minted]
      by_cases hid : channelId = some id
      · simp only [if_pos hid, update_add_snd, Nat.le_refl]
      · simp only [if_neg hid, Nat.add_zero, Nat.le_refl]
    · have hnone : (s.minted channelId vtoken amount).mintOf Prod.snd id v = 0 := if_neg hchannel
      rw [hnone]
      exact Nat.zero_le _
  refine (Finset.sum_le_sum fun id _ => hpoint id).trans ?_
  rw [Finset.sum_add_distrib]
  apply Nat.add_le_add_left
  cases channelId with
  | none => simp only [reduceCtorEq, if_false, Finset.sum_const_zero, Nat.zero_le]
  | some c =>
    simp only [Option.some.injEq, Finset.sum_ite_eq]
    split
    · exact Nat.le_refl _
    · exact Nat.zero_le _

theorem Sound.mint {channelId : Option ℕ} {vtoken : CurrencyId} {amount : ℕ} (hs : Sound v s)
    (h : s.mint channelId vtoken amount = .ok s') : Sound v s' := by
  obtain ⟨-, rfl⟩ := mint_ok h
  apply hs.recorded
  · exact update_add_fst _ _ _
  · rfl
  · intro id
    split
    · exact update_add_fst _ _ _
    · rfl
  · simp only [VtokenMinting.State.issued, Function.update_apply]
    split
    · rename_i hv
      rw [hv]
      omega
    · omega
  · intro ids
    have hsum := sum_minted_le (v := v) channelId vtoken amount s ids
    have htotal : ((s.minted channelId vtoken amount).periodVtokenTotalMint v).2 =
        (s.periodVtokenTotalMint v).2 + if v = vtoken then amount else 0 :=
      update_add_snd _ _ _
    have hle : ∑ id ∈ ids, (s.minted channelId vtoken amount).mintOf Prod.snd id v +
        (s.periodVtokenTotalMint v).2 ≤ ∑ id ∈ ids, s.mintOf Prod.snd id v +
          ((s.minted channelId vtoken amount).periodVtokenTotalMint v).2 := by
      omega
    exact hle

theorem Sound.redeem {vtoken : CurrencyId} {amount : ℕ} (hs : Sound v s)
    (h : s.redeem vtoken amount = .ok s') : Sound v s' := by
  obtain ⟨hle, rfl⟩ := redeem_ok h
  apply hs.recorded
  · rfl
  · exact update_add_fst _ _ _
  · exact fun _ => rfl
  · simp only [VtokenMinting.State.issued, Function.update_apply]
    split
    · rename_i hv
      subst hv
      omega
    · omega
  · exact fun _ => Nat.le_refl _

theorem Sound.withMinting (hs : Sound v s) {minting : VtokenMinting.State cfg.minting}
    (hissuance : minting.vtokenIssuance v = s.minting.vtokenIssuance v)
    (claimable : ℕ → Table CurrencyId ℕ) : Sound v { s with
      minting := minting
      channelClaimableCommissions := claimable } := by
  refine { hs with running := fun hsome => ?_ }
  have hrunning := hs.running hsome
  rw [← hissuance] at hrunning
  exact hrunning

theorem Sound.channelChanged (hs : Sound v s) {channelId : ℕ} {old channel : Channel cfg}
    (hold : s.channels.get channelId = some old) :
    Sound v { s with channels := s.channels.write channelId (some channel) } := by
  have hsome (id : ℕ) : ((s.channels.write channelId (some channel)).get id).isSome =
      (s.channels.get id).isSome := by
    by_cases hid : id = channelId
    · rw [hid, Table.get_write_self, hold]
      rfl
    · rw [Table.get_write_ne _ _ hid]
  refine { hs with
    ids := fun id hid => hs.ids id (hsome id ▸ hid)
    entries := fun id p hp => ⟨?_, (hs.entries id p hp).2⟩
    lastMints := ?_
    newMints := ?_ }
  · exact (hsome id).trans (hs.entries id p hp).1
  · simp only [State.mintOf, hsome]
    exact hs.lastMints
  · simp only [State.mintOf, hsome]
    exact hs.newMints

/-! The end of a block. -/

section Block

/-- The first block of a clearing: what the running period recorded is measured by its
issuances. -/
theorem Sound.firstBlock (hs : Sound v s) (hoffset : s.offset = 0)
    {snapshots : Table CurrencyId (ℕ × ℕ)}
    (hget : ∀ v, snapshots.get v = (s.vtokenIssuanceSnapshots.get v).map
      fun issuance => (issuance.2, s.minting.vtokenIssuance v)) {t : State cfg}
    (ht : t = { { s with vtokenIssuanceSnapshots := snapshots }.shiftPeriod with
      blockNumber := s.blockNumber + 1 }) : Sound v t := by
  have hnext : t.offset = if s.offset + 1 = cfg.clearingDuration then 0 else s.offset + 1 :=
    offset_succ (by rw [ht])
  have hsome (w : CurrencyId) : (t.vtokenIssuanceSnapshots.get w).isSome =
      (s.vtokenIssuanceSnapshots.get w).isSome := by
    have hw : t.vtokenIssuanceSnapshots.get w = snapshots.get w := by rw [ht]; rfl
    rw [hw, hget w, Option.isSome_map]
  have hsnapshot (h : (s.vtokenIssuanceSnapshots.get v).isSome = true) :
      t.snapshot v = ((s.snapshot v).2, s.minting.vtokenIssuance v) := by
    have hv : t.snapshot v = (snapshots.get v).getD (0, 0) := by rw [ht]; rfl
    obtain ⟨issuance, hissuance⟩ := Option.isSome_iff_exists.mp h
    rw [hv, hget v, State.snapshot, hissuance]
    rfl
  have hmint : t.periodVtokenTotalMint v = ((s.periodVtokenTotalMint v).2, 0) := by rw [ht]; rfl
  have hredeem : t.periodVtokenTotalRedeem v = ((s.periodVtokenTotalRedeem v).2, 0) := by
    rw [ht]; rfl
  have hmintOf (period : ℕ × ℕ → ℕ) (id : ℕ) : t.mintOf period id v =
      s.mintOf (fun pair => period (pair.2, 0)) id v := by rw [ht]; rfl
  have hshares : t.channelVtokenShares = s.channelVtokenShares := by rw [ht]; rfl
  have hissuance : t.minting = s.minting := by rw [ht]; rfl
  have hfit (h : (s.vtokenIssuanceSnapshots.get v).isSome = true) :
      (t.snapshot v).1 + (t.periodVtokenTotalMint v).1 ≤
        (t.snapshot v).2 + (t.periodVtokenTotalRedeem v).1 := by
    rw [hsnapshot h, hmint, hredeem]
    exact hs.running h
  have hlastMints (ids : Finset ℕ) :
      ∑ id ∈ ids, t.mintOf Prod.fst id v ≤ (t.periodVtokenTotalMint v).1 := by
    rw [hmint]
    exact (Finset.sum_congr rfl fun id _ => hmintOf Prod.fst id).trans_le (hs.newMints ids)
  refine ⟨?_, ?_, ?_, ?_, ?_, ?_, fun _ hgrew => ?_, hlastMints, fun ids => ?_, fun ids => ?_, ?_⟩
  · intro w hw
    exact hs.keyed w (hsome w ▸ hw)
  · rw [ht]
    exact hs.next_lt
  · rw [ht]
    exact hs.ids
  · intro id p hp
    rw [hsome, ht]
    exact hs.entries id p (hshares ▸ hp)
  · intro htoken
    rw [hsome]
    exact hs.configured (by rw [ht] at htoken; exact htoken)
  · intro h
    have h' : (s.vtokenIssuanceSnapshots.get v).isSome = true := hsome v ▸ h
    rw [hsnapshot h', hmint, hredeem, hissuance]
  · cases hnone : (s.vtokenIssuanceSnapshots.get v).isSome with
    | true => exact Or.inl (hfit hnone)
    | false =>
      refine Or.inr fun id p hp => ?_
      have hentry := (hs.entries id p (hshares ▸ hp)).2
      rw [hnone] at hentry
      contradiction
  · have hzero (id : ℕ) : t.mintOf Prod.snd id v = 0 := by
      rw [hmintOf]
      exact ite_self 0
    simp only [hzero, Finset.sum_const_zero, Nat.zero_le]
  · have hbefore (id : ℕ) : s.finalShare id v = (s.share id v).parts :=
      finalShare_eq_share (Or.inl hoffset)
    have hshare := hs.whole ids
    simp only [hbefore] at hshare
    have hsame (id : ℕ) : t.share id v = s.share id v := by
      rw [State.share, State.share, hshares]
    by_cases hstays : t.offset = 0 ∨ ¬ t.Grew v
    · have hfinal (id : ℕ) : t.finalShare id v = (s.share id v).parts := by
        rw [← hsame]
        rcases hstays with hover | hnot
        · exact finalShare_eq_share (Or.inl hover)
        · exact finalShare_eq_of_not_grew hnot id
      simp only [hfinal]
      exact hshare
    · rw [not_or, not_not] at hstays
      obtain ⟨hover, hgrew⟩ := hstays
      have hone : t.offset = 1 := by
        rw [hnext, hoffset] at hover ⊢
        exact if_neg fun hlast => hover (if_pos hlast)
      cases hnone : (s.vtokenIssuanceSnapshots.get v).isSome with
      | false =>
        have hfinal (id : ℕ) : t.finalShare id v = 0 := by
          apply finalShare_of_none
          cases hp : (t.channelVtokenShares id).get v with
          | none => rfl
          | some p =>
            have hentry := (hs.entries id p (hshares ▸ hp)).2
            rw [hnone] at hentry
            contradiction
        simp only [hfinal, Finset.sum_const_zero, Nat.zero_le]
      | true =>
        refine (Finset.sum_le_sum fun id _ => ?_).trans
          (sum_newShare_le hshare (hlastMints ids) hgrew (hfit hnone))
        cases hp : (t.channelVtokenShares id).get v with
        | none =>
          rw [finalShare_of_none hp]
          exact Nat.zero_le _
        | some p =>
          have hregistered : (t.channels.get id).isSome = true := by
            rw [ht]
            exact (hs.entries id p (hshares ▸ hp)).1
          have hblock : ¬ (t.offset = 0 ∨ id + 1 < t.offset) := by omega
          have hparts : (s.share id v).parts = p.parts := by
            rw [← hsame, State.share, hp]
            rfl
          rw [finalShare_of_get hp, if_neg hblock, State.updatedShare, if_pos hgrew, hparts,
            mintOf_of_isSome hregistered]
          exact (newShare_le id p).trans
            (Proportion.part_le_part (shareNumerator_le id p) _ _)
  · rw [ht]
    exact hs.failures

theorem Sound.quietBlock (hs : Sound v s) (hquiet : s.channelNextId < s.offset ∨ ¬ s.Grew v)
    {t : State cfg} (hblock : ∃ cleared history steady ledger, t = { s with
      periodClearedCommissions := cleared
      history := history
      minting := { s.minting with ledger := ledger }
      steady := steady
      blockNumber := s.blockNumber + 1 }) : Sound v t := by
  obtain ⟨cleared, history, steady, ledger, ht⟩ := hblock
  have hnext : t.offset = if s.offset + 1 = cfg.clearingDuration then 0 else s.offset + 1 :=
    offset_succ (by rw [ht])
  have hfinal (id : ℕ) : t.finalShare id v = s.finalShare id v := by
    cases hp : (s.channelVtokenShares id).get v with
    | none =>
      have hp' : (t.channelVtokenShares id).get v = none := by rw [ht]; exact hp
      rw [finalShare_of_none hp, finalShare_of_none hp']
    | some p =>
      have hp' : (t.channelVtokenShares id).get v = some p := by rw [ht]; exact hp
      have hid := hs.lt_next hp
      have hupdated : t.updatedShare id v p = s.updatedShare id v p := by rw [ht]; rfl
      rw [finalShare_of_get hp, finalShare_of_get hp', hupdated]
      rcases hquiet with hpast | hstays
      · have hbefore : s.offset = 0 ∨ id + 1 < s.offset := Or.inr (by omega)
        have hafter : t.offset = 0 ∨ id + 1 < t.offset := by
          rw [hnext]
          split
          · exact Or.inl rfl
          · exact Or.inr (by omega)
        rw [if_pos hafter, if_pos hbefore]
      · have hsame : s.updatedShare id v p = p := if_neg hstays
        rw [hsame, ite_self, ite_self]
  have hlast : t.offset ≠ 0 → s.Grew v → s.offset ≠ 0 ∧ t.offset = s.offset + 1 := by
    intro hne hgrew
    rw [hnext] at hne ⊢
    rcases hquiet with hpast | hstays
    · refine ⟨by omega, if_neg fun heq => hne (if_pos heq)⟩
    · exact absurd hgrew hstays
  have hbase : Sound v { s with
      periodClearedCommissions := cleared
      history := history
      minting := { s.minting with ledger := ledger }
      steady := steady } := { hs with }
  rw [ht] at hfinal hlast ⊢
  refine { hbase with
    last := fun hoffset hgrew => ?_
    whole := fun ids => ?_ }
  · obtain ⟨hne, hsucc⟩ := hlast hoffset hgrew
    rcases hs.last hne hgrew with hfit | hidle
    · exact Or.inl hfit
    · exact Or.inr fun id p hp hblock => hidle id p hp (by omega)
  · simp only [hfinal]
    exact hs.whole ids

theorem Sound.channelBlock (hs : Sound v s) (hoffset : s.offset ≠ 0)
    (hlast : s.offset + 1 = cfg.clearingDuration →
      s.channelNextId < cfg.clearingDuration ∨ ¬ s.Grew v) {t : State cfg}
    (ht : t = { s.updateChannelVtokenShares (s.offset - 1) with
      blockNumber := s.blockNumber + 1 }) : Sound v t := by
  obtain ⟨hget, hfailures⟩ := updateChannelVtokenShares_get (v := v) (s.offset - 1) s
  have hworks : t.failures v = s.failures v := by
    rw [ht]
    exact hfailures fun p hp hgrew =>
      not_shareFails (hs.numerator_le hoffset hgrew hp (by omega))
  have hshares (id : ℕ) : (t.channelVtokenShares id).get v =
      if id = s.offset - 1 then
        ((s.channelVtokenShares (s.offset - 1)).get v).map (s.updatedShare (s.offset - 1) v)
      else (s.channelVtokenShares id).get v := by
    rw [ht]
    exact hget id
  obtain ⟨shares, failures, heq⟩ := updateChannelVtokenShares_eq (s.offset - 1) s
  rw [heq] at ht
  have hnext : t.offset = if s.offset + 1 = cfg.clearingDuration then 0 else s.offset + 1 :=
    offset_succ (by rw [ht])
  have hentry {id : ℕ} {p : Permill} (hp : (t.channelVtokenShares id).get v = some p) :
      ∃ p', (s.channelVtokenShares id).get v = some p' := by
    rw [hshares] at hp
    split at hp
    · rename_i hid
      subst hid
      obtain ⟨p', hp', -⟩ := Option.map_eq_some_iff.mp hp
      exact ⟨p', hp'⟩
    · exact ⟨p, hp⟩
  have hupdated (id : ℕ) (p : Permill) : t.updatedShare id v p = s.updatedShare id v p := by
    rw [ht]
    rfl
  have hfinal (id : ℕ) : t.finalShare id v = s.finalShare id v := by
    cases hp : (s.channelVtokenShares id).get v with
    | none =>
      have hp' : (t.channelVtokenShares id).get v = none := by
        cases hq : (t.channelVtokenShares id).get v with
        | none => rfl
        | some q =>
          obtain ⟨p, hsome⟩ := hentry hq
          rw [hp] at hsome
          contradiction
      rw [finalShare_of_none hp, finalShare_of_none hp']
    | some p =>
      have hid := hs.lt_next hp
      rw [finalShare_of_get hp]
      by_cases hblock : id = s.offset - 1
      · subst hblock
        have hp' : (t.channelVtokenShares (s.offset - 1)).get v =
            some (s.updatedShare (s.offset - 1) v p) := by
          rw [hshares, if_pos rfl, hp]
          rfl
        have hbefore : ¬ (s.offset = 0 ∨ s.offset - 1 + 1 < s.offset) := by omega
        have hafter : t.offset = 0 ∨ s.offset - 1 + 1 < t.offset := by
          rw [hnext]
          split
          · exact Or.inl rfl
          · exact Or.inr (by omega)
        rw [finalShare_of_get hp', if_pos hafter, if_neg hbefore]
      · have hp' : (t.channelVtokenShares id).get v = some p := by
          rw [hshares, if_neg hblock]
          exact hp
        rw [finalShare_of_get hp', hupdated]
        by_cases hgrew : s.Grew v
        · have hiff : (t.offset = 0 ∨ id + 1 < t.offset) ↔ (s.offset = 0 ∨ id + 1 < s.offset) := by
            rw [hnext]
            split
            · rename_i hover
              rcases hlast hover with hshort | hstays
              · omega
              · exact absurd hgrew hstays
            · omega
          simp only [hiff]
        · have hsame : s.updatedShare id v p = p := if_neg hgrew
          rw [hsame, ite_self, ite_self]
  refine ⟨?_, ?_, ?_, fun id p hp => ?_, ?_, ?_, fun hne hgrew => ?_, fun ids => ?_, fun ids => ?_,
    fun ids => ?_, hworks.trans hs.failures⟩
  · rw [ht]
    exact hs.keyed
  · rw [ht]
    exact hs.next_lt
  · rw [ht]
    exact hs.ids
  · obtain ⟨p', hp'⟩ := hentry hp
    rw [ht]
    exact hs.entries id p' hp'
  · rw [ht]
    exact hs.configured
  · rw [ht]
    exact hs.running
  · have hgrew' : s.Grew v := by
      rw [ht] at hgrew
      exact hgrew
    have hsucc : t.offset = s.offset + 1 := by
      rw [hnext] at hne ⊢
      exact if_neg fun hover => hne (if_pos hover)
    have hreads : t.snapshot v = s.snapshot v ∧
        t.periodVtokenTotalMint v = s.periodVtokenTotalMint v ∧
        t.periodVtokenTotalRedeem v = s.periodVtokenTotalRedeem v ∧
        t.periodChannelVtokenMint = s.periodChannelVtokenMint := by
      rw [ht]
      exact ⟨rfl, rfl, rfl, rfl⟩
    obtain ⟨hsnapshot, hmint, hredeem, hchannel⟩ := hreads
    rw [hsnapshot, hmint, hredeem, hchannel]
    rcases hs.last hoffset hgrew' with hfit | hidle
    · exact Or.inl hfit
    · refine Or.inr fun id p hp hblock => ?_
      rw [hshares, if_neg (by omega)] at hp
      exact hidle id p hp (by omega)
  · rw [ht]
    exact hs.lastMints ids
  · rw [ht]
    exact hs.newMints ids
  · simp only [hfinal]
    exact hs.whole ids

theorem Sound.endBlock (hs : Sound v s) {enough : Bool}
    (hrun : enough = true ∨ s.channelNextId < s.offset ∨ ¬ s.Grew v)
    (hlast : s.offset ≠ 0 → s.offset + 1 = cfg.clearingDuration →
      s.channelNextId < cfg.clearingDuration ∨ ¬ s.Grew v) : Sound v (s.endBlock enough) := by
  have hids := wrappingAdd_one_eq hs.next_lt
  cases enough with
  | false =>
    have hquiet : s.channelNextId < s.offset ∨ ¬ s.Grew v := by
      rcases hrun with henough | hquiet
      · contradiction
      · exact hquiet
    exact hs.quietBlock hquiet ⟨_, _, _, _, rfl⟩
  | true =>
    rcases s.onIdle_cases with ⟨h0, hidle⟩ | ⟨hblock, hidle⟩ | ⟨hblock, hidle⟩ | ⟨hpast, hidle⟩
    · obtain ⟨snapshots, henv, hget⟩ := setClearingEnvironment_eq hs.keyed
      refine hs.firstBlock h0 hget ?_
      simp only [State.endBlock, if_true, hidle, henv]
    · obtain ⟨claimable, cleared, history, hclear⟩ := clearChannelCommissions_eq (s.offset - 1) s
      have hcleared : Sound v (s.clearChannelCommissions (s.offset - 1)) := by
        rw [hclear]
        exact { hs with }
      have hreads : (s.clearChannelCommissions (s.offset - 1)).offset = s.offset ∧
          (s.clearChannelCommissions (s.offset - 1)).blockNumber = s.blockNumber ∧
          (s.clearChannelCommissions (s.offset - 1)).channelNextId = s.channelNextId ∧
          ((s.clearChannelCommissions (s.offset - 1)).Grew v ↔ s.Grew v) := by
        rw [hclear]
        exact ⟨rfl, rfl, rfl, Iff.rfl⟩
      obtain ⟨hoffset, hnumber, hnext, hgrew⟩ := hreads
      apply hcleared.channelBlock
      · rw [hoffset]
        exact hblock.1
      · rw [hoffset, hnext, hgrew]
        exact hlast hblock.1
      · rw [hoffset, hnumber]
        simp only [State.endBlock, if_true, hidle]
    · obtain ⟨cleared, history, ledger, hclear⟩ := clearBifrostCommissions_eq s
      have hoffset := hblock.2
      refine hs.quietBlock (Or.inl (by omega)) ⟨cleared, history, s.steady, ledger, ?_⟩
      simp only [State.endBlock, if_true, hidle, hclear]
    · refine hs.quietBlock (Or.inl (by omega)) ⟨s.periodClearedCommissions, s.history, s.steady,
        s.minting.ledger, ?_⟩
      simp only [State.endBlock, if_true, hidle]

end Block

theorem start_sound (minting : VtokenMinting.State cfg.minting) (blockNumber : ℕ) :
    Sound v (State.start cfg minting blockNumber) := by
  have hnext : (0 : ℕ) < u32Max := by decide
  refine ⟨fun _ h => by simp [State.start] at h, hnext, fun _ h => by simp [State.start] at h,
    fun _ _ h => by simp [State.start] at h, fun h => by simp [State.start] at h,
    fun h => by simp [State.start] at h, fun _ _ => Or.inr fun _ _ h => by simp [State.start] at h,
    fun ids => ?_, fun ids => ?_, fun ids => ?_, rfl⟩
  · simp [State.mintOf, State.start]
  · simp [State.mintOf, State.start]
  · simp [State.finalShare, State.start]

theorem step_sound [DecidableEq AccountId] {call : Call cfg} (hs : Sound v s)
    (hok : KeepsInStep v s call) (h : step s call = .ok s') : Sound v s' := by
  cases call with
  | registerChannel origin channelName receiveAccount =>
    simp only [step, bind_eq_ok] at h
    obtain ⟨-, -, h⟩ := h
    obtain ⟨channel, rates, rfl⟩ := registerChannel_ok h
    exact hs.registered hok.1 hok.2
  | removeChannel origin channelId complete =>
    simp only [step, bind_eq_ok] at h
    obtain ⟨-, -, h⟩ := h
    obtain ⟨minting, claimable, rates, hissuance, rfl⟩ := removeChannel_ok h
    exact hs.removed hissuance
  | updateChannelReceiveAccount origin channelId receiveAccount =>
    simp only [step, bind_eq_ok] at h
    obtain ⟨-, -, h⟩ := h
    obtain ⟨old, channel, hold, rfl⟩ := updateChannelReceiveAccount_ok h
    exact hs.channelChanged hold
  | setChannelCommissionToken origin channelId vtoken rate =>
    simp only [step, bind_eq_ok] at h
    obtain ⟨-, -, h⟩ := h
    obtain ⟨rates, rfl⟩ := setChannelCommissionToken_ok h
    exact { hs with }
  | setCommissionTokens origin vtoken commissionToken =>
    simp only [step, bind_eq_ok] at h
    obtain ⟨-, -, h⟩ := h
    obtain ⟨hv, rfl⟩ := setCommissionTokens_ok h
    cases commissionToken with
    | none =>
      by_cases hne : v = vtoken
      · subst hne
        exact hs.removeVtoken_self
      · exact hs.removeVtoken_ne hne
    | some token =>
      by_cases hne : vtoken = v
      · subst hne
        exact hs.configured_self hv (hok rfl).1 (hok rfl).2
      · exact hs.configured_ne hv hne
  | claimCommissions origin channelId =>
    simp only [step, bind_eq_ok] at h
    obtain ⟨-, -, h⟩ := h
    obtain ⟨minting, claimable, hissuance, rfl⟩ := settleChannelCommission_ok h
    exact hs.withMinting (congrFun hissuance v) claimable
  | setChannelVtokenShares origin channelId vtoken shares =>
    simp only [step, bind_eq_ok] at h
    obtain ⟨-, -, h⟩ := h
    exact hs.setChannelVtokenShares hok h
  | mint channelId vtoken amount => exact hs.mint h
  | redeem vtoken amount => exact hs.redeem h
  | recordHostingFee stakingToken amount =>
    rcases recordHostingFee_ok h with rfl | ⟨token', vtokenAmount, -, rfl⟩
    · exact hs
    · exact { hs with }
  | endBlock enough =>
    simp only [step, pure_eq_ok] at h
    subst h
    exact hs.endBlock hok.1 hok.2
  | outside minting =>
    simp only [step, pure_eq_ok] at h
    subst h
    exact hs.withMinting hok s.channelClaimableCommissions

/-- In a run whose calls keep what a clearing compares in step, the shares of a vToken stay within
one, and no update of a share fails. -/
theorem shares_within_whole [DecidableEq AccountId] (v : CurrencyId)
    (minting : VtokenMinting.State cfg.minting) (blockNumber : ℕ) (calls : List (Call cfg))
    (hcalls : Meets step (KeepsInStep v) (State.start cfg minting blockNumber) calls) :
    Always step (Shared v) (State.start cfg minting blockNumber) calls := by
  have hstep (s : State cfg) (call : Call cfg) (s' : State cfg) (hs : Sound v s)
      (hok : KeepsInStep v s call) (h : step s call = .ok s') : Sound v s' := step_sound hs hok h
  exact (always_of_meets hstep calls (start_sound minting blockNumber) hcalls).imp
    fun s hs => hs.shared

namespace Sample

open VtokenMinting (vEth)

/-- A channel with half of 1000 vTokens gets 500 more through it in the next period. -/
def mintedThrough : List (Call config) :=
  [.mint none vEth 1000, .endBlock true, .endBlock true, .endBlock true,
    .registerChannel control [] 7, .setCommissionTokens control vEth (some vEth),
    .setChannelVtokenShares control 0 vEth (Permill.fromPercent 50),
    .endBlock true, .endBlock true, .endBlock true,
    .mint (some 0) vEth 500, .endBlock true, .endBlock true]

/-- The vToken is configured in the period its first 1000 are minted in. -/
def mintedBefore : List (Call config) :=
  [.registerChannel control [] 7, .mint (some 0) vEth 1000,
    .setCommissionTokens control vEth (some vEth),
    .setChannelVtokenShares control 0 vEth (Permill.fromPercent 100),
    .endBlock true, .endBlock true, .endBlock true]

end Sample

theorem shares_within_whole_sample :
    Always step (Shared VtokenMinting.vEth) Sample.start Sample.mintedThrough ∧
      ((run step Sample.start Sample.mintedThrough).share 0 VtokenMinting.vEth).parts = 666666 :=
  ⟨shares_within_whole VtokenMinting.vEth
    (VtokenMinting.genesis Sample.config.minting Sample.balances) 0 Sample.mintedThrough
    (by decide), by decide⟩

/-- The mints of the period are in the first issuance already: the update of the share comes to
twice the issuance and fails, and a channel with all of the vToken has none of it. -/
theorem share_lost_in_first_clearing :
    let s := run step Sample.start Sample.mintedBefore
    ((s.share 0 VtokenMinting.vEth).parts, s.failures VtokenMinting.vEth) = (0, 1) ∧
      ¬ Shared VtokenMinting.vEth s := by
  refine ⟨by decide, fun h => ?_⟩
  have hfailures : (run step Sample.start Sample.mintedBefore).failures VtokenMinting.vEth = 1 := by
    decide
  rw [h.2] at hfailures
  contradiction

end Bifrost.ChannelCommission
