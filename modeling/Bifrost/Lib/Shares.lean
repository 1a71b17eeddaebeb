import Mathlib.Tactic.Ring

/-!
# A pool and the shares in it

Assets that join a pool buy shares at the rate of the pool, shares that leave it are paid
at that rate, and both conversions round down. The rate is compared by cross
multiplication: `RateLe` says that it does not fall. Neither conversion lowers it, and what
was bought for an amount is not worth more than that amount right after. The second part is
about a pool whose rate is itself rounded down to a unit before it is used.
-/

namespace Bifrost.Shares

set_option autoImplicit false

/-- The shares an amount buys. The first assets buy shares one to one. -/
def mintedFor (pool issuance amount : ℕ) : ℕ :=
  if pool = 0 then amount else amount * issuance / pool

def redeemedFor (pool issuance shares : ℕ) : ℕ :=
  if issuance = 0 then shares else shares * pool / issuance

def RateLe (pool issuance pool' issuance' : ℕ) : Prop := pool * issuance' ≤ pool' * issuance

variable {pool issuance : ℕ}

theorem mintedFor_mul_le (hpool : 0 < pool) (amount : ℕ) :
    mintedFor pool issuance amount * pool ≤ amount * issuance := by
  rw [mintedFor, if_neg (by omega)]
  exact Nat.div_mul_le_self _ _

theorem redeemedFor_mul_le (hissuance : 0 < issuance) (shares : ℕ) :
    redeemedFor pool issuance shares * issuance ≤ shares * pool := by
  rw [redeemedFor, if_neg (by omega)]
  exact Nat.div_mul_le_self _ _

theorem mint_rate (hpool : 0 < pool) (amount : ℕ) :
    RateLe pool issuance (pool + amount) (issuance + mintedFor pool issuance amount) := by
  have h : mintedFor pool issuance amount * pool ≤ amount * issuance :=
    mintedFor_mul_le hpool amount
  calc pool * (issuance + mintedFor pool issuance amount)
      = pool * issuance + mintedFor pool issuance amount * pool := by ring
    _ ≤ pool * issuance + amount * issuance := Nat.add_le_add_left h _
    _ = (pool + amount) * issuance := by ring

theorem mint_rate_of_le (hpool : 0 < pool) {amount paid : ℕ} (hle : amount ≤ paid) :
    RateLe pool issuance (pool + paid) (issuance + mintedFor pool issuance amount) :=
  (mint_rate hpool amount).trans (Nat.mul_le_mul_right issuance (Nat.add_le_add_left hle pool))

theorem mintedFor_le_of_rateLe {pool' issuance' : ℕ} (hpool : 0 < pool) (hpool' : 0 < pool')
    (h : RateLe pool issuance pool' issuance') (amount : ℕ) :
    mintedFor pool' issuance' amount ≤ mintedFor pool issuance amount := by
  have hshares : mintedFor pool' issuance' amount * pool' ≤ amount * issuance' :=
    mintedFor_mul_le hpool' amount
  have hworth : mintedFor pool' issuance' amount * pool ≤ amount * issuance := by
    apply Nat.le_of_mul_le_mul_right _ hpool'
    calc mintedFor pool' issuance' amount * pool * pool'
        = pool * (mintedFor pool' issuance' amount * pool') := by ring
      _ ≤ pool * (amount * issuance') := Nat.mul_le_mul_left pool hshares
      _ = amount * (pool * issuance') := by ring
      _ ≤ amount * (pool' * issuance) := Nat.mul_le_mul_left amount h
      _ = amount * issuance * pool' := by ring
  have heq : mintedFor pool issuance amount = amount * issuance / pool := by
    rw [mintedFor, if_neg (by omega)]
  rw [heq]
  exact (Nat.le_div_iff_mul_le hpool).mpr hworth

theorem dilute_rate_iff {shares : ℕ} (hpos : 0 < shares) :
    RateLe pool issuance pool (issuance + shares) ↔ pool = 0 := by
  unfold RateLe
  rw [Nat.mul_add]
  constructor
  · intro hle
    have hnone : pool * shares = 0 := by omega
    rcases Nat.mul_eq_zero.mp hnone with hpool | hshares
    · exact hpool
    · omega
  · rintro rfl
    simp

theorem redeem_rate (hissuance : 0 < issuance) (shares : ℕ) :
    RateLe pool issuance (pool - redeemedFor pool issuance shares) (issuance - shares) := by
  have h : redeemedFor pool issuance shares * issuance ≤ shares * pool :=
    redeemedFor_mul_le hissuance shares
  unfold RateLe
  rw [Nat.mul_sub, Nat.sub_mul, Nat.mul_comm pool shares]
  exact Nat.sub_le_sub_left h _

theorem withdraw_rate_iff {amount : ℕ} (hle : amount ≤ pool) :
    RateLe pool issuance (pool - amount) issuance ↔ amount = 0 ∨ issuance = 0 := by
  unfold RateLe
  rcases Nat.eq_zero_or_pos issuance with h0 | hpos
  · simp [h0]
  · rw [Nat.mul_le_mul_right_iff hpos]
    omega

theorem redeemedFor_le_of_le_mintedFor {amount shares : ℕ}
    (hshares : shares ≤ mintedFor pool issuance amount) :
    redeemedFor pool issuance shares ≤ amount := by
  rcases Nat.eq_zero_or_pos pool with hpool | hpool
  · simp only [mintedFor, hpool, if_true] at hshares
    simp only [redeemedFor, hpool, Nat.mul_zero, Nat.zero_div]
    split
    · exact hshares
    · exact Nat.zero_le _
  · have hbought : mintedFor pool issuance amount * pool ≤ amount * issuance :=
      mintedFor_mul_le hpool amount
    unfold redeemedFor
    split
    · rename_i h0
      rw [mintedFor, if_neg (by omega), h0, Nat.mul_zero, Nat.zero_div] at hshares
      omega
    · apply Nat.div_le_of_le_mul
      calc shares * pool ≤ mintedFor pool issuance amount * pool := Nat.mul_le_mul_right _ hshares
        _ ≤ issuance * amount := by
          rw [Nat.mul_comm issuance]
          exact hbought

theorem round_trip_le {amount shares : ℕ} (hshares : shares ≤ mintedFor pool issuance amount) :
    redeemedFor (pool + amount) (issuance + mintedFor pool issuance amount) shares ≤ amount := by
  unfold redeemedFor
  split
  · rename_i h0
    have hm : mintedFor pool issuance amount = 0 := by omega
    omega
  · apply Nat.div_le_of_le_mul
    calc shares * (pool + amount)
        ≤ mintedFor pool issuance amount * (pool + amount) := Nat.mul_le_mul_right _ hshares
      _ ≤ (issuance + mintedFor pool issuance amount) * amount := by
        rcases Nat.eq_zero_or_pos pool with h0 | hpos
        · subst pool
          rw [Nat.zero_add]
          exact Nat.mul_le_mul_right _ (Nat.le_add_left _ _)
        · have h : mintedFor pool issuance amount * pool ≤ amount * issuance :=
            mintedFor_mul_le hpos amount
          calc mintedFor pool issuance amount * (pool + amount)
              = mintedFor pool issuance amount * pool + mintedFor pool issuance amount * amount := by
                ring
            _ ≤ amount * issuance + mintedFor pool issuance amount * amount :=
              Nat.add_le_add_right h _
            _ = (issuance + mintedFor pool issuance amount) * amount := by ring

/-! The rate in units of `1 / scale`. -/

section Rounded

variable {scale pool' amount shares : ℕ}

def roundedRate (scale pool issuance : ℕ) : ℕ := pool * scale / issuance

theorem roundedRate_mono (h : pool ≤ pool') :
    roundedRate scale pool issuance ≤ roundedRate scale pool' issuance :=
  Nat.div_le_div_right (Nat.mul_le_mul_right _ h)

theorem roundedRate_mul_le : roundedRate scale pool issuance * issuance ≤ pool * scale :=
  Nat.div_mul_le_self _ _

theorem roundedRate_join (hissuance : 0 < issuance)
    (hshares : shares * roundedRate scale pool issuance ≤ amount * scale) :
    roundedRate scale pool issuance ≤ roundedRate scale (pool + amount) (issuance + shares) := by
  apply (Nat.le_div_iff_mul_le (by omega)).mpr
  calc roundedRate scale pool issuance * (issuance + shares)
      = roundedRate scale pool issuance * issuance + shares * roundedRate scale pool issuance := by
        ring
    _ ≤ pool * scale + amount * scale := Nat.add_le_add roundedRate_mul_le hshares
    _ = (pool + amount) * scale := by ring

theorem roundedRate_leave (hleft : shares < issuance)
    (hamount : amount * scale ≤ shares * roundedRate scale pool issuance) :
    roundedRate scale pool issuance ≤ roundedRate scale (pool - amount) (issuance - shares) := by
  apply (Nat.le_div_iff_mul_le (by omega)).mpr
  have hpool : roundedRate scale pool issuance * issuance ≤ pool * scale := roundedRate_mul_le
  rw [Nat.mul_sub, Nat.sub_mul, Nat.mul_comm (roundedRate scale pool issuance) shares]
  exact (Nat.sub_le_sub_left hamount _).trans (Nat.sub_le_sub_right hpool _)

/-- Assets that leave without shares are covered by what the rounding left over. -/
theorem roundedRate_lose (hissuance : 0 < issuance)
    (hamount : amount * scale ≤ pool * scale % issuance) :
    roundedRate scale pool issuance ≤ roundedRate scale (pool - amount) issuance := by
  apply (Nat.le_div_iff_mul_le hissuance).mpr
  have hdiv : issuance * (pool * scale / issuance) + pool * scale % issuance = pool * scale :=
    Nat.div_add_mod _ _
  rw [Nat.sub_mul, roundedRate, Nat.mul_comm]
  omega

/-- What an amount bought at the rounded rate is worth at most that amount right after. The
rate moves only where the purchase and the old rate left more over than a share is worth. -/
theorem rounded_round_trip_le (hissuance : 0 < issuance) (hscale : 0 < scale)
    (hbought : shares * roundedRate scale pool issuance ≤ amount * scale) :
    shares * roundedRate scale (pool + amount) (issuance + shares) / scale ≤ amount := by
  have hrate : roundedRate scale pool issuance ≤
      roundedRate scale (pool + amount) (issuance + shares) := roundedRate_join hissuance hbought
  obtain ⟨gain, hgain⟩ := Nat.exists_eq_add_of_le hrate
  have hleft : pool * scale < roundedRate scale pool issuance * issuance + issuance :=
    Nat.lt_div_mul_add hissuance
  have hnew : roundedRate scale (pool + amount) (issuance + shares) * (issuance + shares) ≤
      (pool + amount) * scale := roundedRate_mul_le
  rw [hgain] at hnew ⊢
  apply Nat.le_of_lt_succ
  apply (Nat.div_lt_iff_lt_mul hscale).mpr
  by_contra hprofit
  rw [Nat.not_lt] at hprofit
  rcases Nat.eq_zero_or_pos gain with hzero | hpos
  · subst gain
    rw [Nat.add_zero, Nat.succ_mul] at hprofit
    omega
  · have hissued : issuance ≤ gain * issuance := Nat.le_mul_of_pos_left _ hpos
    have hold : roundedRate scale pool issuance * shares = shares * roundedRate scale pool issuance :=
      Nat.mul_comm _ _
    have hnewly : gain * shares = shares * gain := Nat.mul_comm _ _
    simp only [Nat.add_mul, Nat.mul_add, Nat.succ_mul] at hnew hprofit
    omega

end Rounded

end Bifrost.Shares
