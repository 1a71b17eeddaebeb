import Bifrost.Lib.Shares
import Mathlib.Tactic.Linarith
import Mathlib.Tactic.FieldSimp

/-!
# What shares are worth after others join or leave

The holder of some shares joins a pool with a rounded rate, or leaves it in part. Its shares are
then worth what they were, and what it brought or took, up to the rounding of the rate. The second
part has the rate of a pool as a fraction.
-/

namespace Bifrost.Shares

set_option autoImplicit false

variable {pool issuance : ℕ}

/-! Rounded rates. -/

section Rounded

variable {scale pool' amount shares held lost : ℕ}

theorem lt_roundedRate_mul (scale pool : ℕ) (hissuance : 0 < issuance) :
    pool * scale < roundedRate scale pool issuance * issuance + issuance :=
  Nat.lt_div_mul_add hissuance

theorem join_worth (hissuance : 0 < issuance) (hheld : held ≤ issuance)
    (hbought : shares * roundedRate scale pool issuance ≤ amount * scale)
    (hall : amount * scale < (shares + 1) * roundedRate scale pool issuance) :
    held * roundedRate scale pool issuance + amount * scale ≤
        (held + shares) * roundedRate scale (pool + amount) (issuance + shares) +
          roundedRate scale pool issuance ∧
      (held + shares) * roundedRate scale (pool + amount) (issuance + shares) ≤
        held * roundedRate scale pool issuance + amount * scale + issuance +
          roundedRate scale pool issuance := by
  have hrate : roundedRate scale pool issuance ≤
      roundedRate scale (pool + amount) (issuance + shares) := roundedRate_join hissuance hbought
  have hold := lt_roundedRate_mul scale pool hissuance
  have hnew : roundedRate scale (pool + amount) (issuance + shares) * (issuance + shares) ≤
      (pool + amount) * scale := roundedRate_mul_le
  obtain ⟨gain, hgain⟩ := Nat.exists_eq_add_of_le hrate
  rw [hgain] at hnew ⊢
  generalize roundedRate scale pool issuance = rate at *
  have hshare : (held + shares) * gain ≤ (issuance + shares) * gain :=
    Nat.mul_le_mul_right _ (by omega)
  constructor
  · nlinarith [Nat.zero_le ((held + shares) * gain)]
  · nlinarith

theorem leave_worth (hshares : shares ≤ held) (hheld : held ≤ issuance)
    (hpaid : amount * scale ≤ shares * roundedRate scale pool issuance)
    (hall : shares * roundedRate scale pool issuance < (amount + 1) * scale)
    (hleft : pool ≤ pool' + amount + lost) (hmost : pool' + amount ≤ pool) :
    (held - shares) * roundedRate scale pool issuance ≤
        (held - shares) * roundedRate scale pool' (issuance - shares) + lost * scale +
          (held - shares) ∧
      (held - shares) * roundedRate scale pool' (issuance - shares) ≤
        (held - shares) * roundedRate scale pool issuance + issuance + scale := by
  obtain ⟨kept, rfl⟩ := Nat.exists_eq_add_of_le hshares
  obtain ⟨others, rfl⟩ := Nat.exists_eq_add_of_le hheld
  have hkept : shares + kept - shares = kept := by omega
  have hrest : shares + kept + others - shares = kept + others := by omega
  rw [hkept, hrest]
  rcases Nat.eq_zero_or_pos kept with rfl | hpos
  · simp
  have hold := lt_roundedRate_mul scale pool (show 0 < shares + kept + others by omega)
  have hvalue : roundedRate scale pool (shares + kept + others) * (shares + kept + others) ≤
      pool * scale := roundedRate_mul_le
  have hnew := lt_roundedRate_mul scale pool' (show 0 < kept + others by omega)
  have hnew' : roundedRate scale pool' (kept + others) * (kept + others) ≤ pool' * scale :=
    roundedRate_mul_le
  generalize roundedRate scale pool (shares + kept + others) = rate at *
  generalize roundedRate scale pool' (kept + others) = rate' at *
  have hassets : pool * scale ≤ pool' * scale + amount * scale + lost * scale := by
    rw [← Nat.add_mul, ← Nat.add_mul]
    exact Nat.mul_le_mul_right _ hleft
  have hassets' : pool' * scale + amount * scale ≤ pool * scale := by
    rw [← Nat.add_mul]
    exact Nat.mul_le_mul_right _ hmost
  constructor
  · rcases Nat.le_total rate rate' with hle | hle
    · have hmul : kept * rate ≤ kept * rate' := Nat.mul_le_mul_left _ hle
      omega
    · obtain ⟨drop, rfl⟩ := Nat.exists_eq_add_of_le hle
      -- a rate that fell by more than one unit fell by what was lost
      rcases Nat.eq_zero_or_pos drop with rfl | hdrop
      · rw [Nat.add_zero]
        omega
      · obtain ⟨more, rfl⟩ := Nat.exists_eq_add_of_le' hdrop
        have hmore : more * kept ≤ more * (kept + others) := Nat.mul_le_mul_left _ (by omega)
        nlinarith
  · rcases Nat.le_total rate' rate with hle | hle
    · have hmul : kept * rate' ≤ kept * rate := Nat.mul_le_mul_left _ hle
      omega
    · obtain ⟨rise, rfl⟩ := Nat.exists_eq_add_of_le hle
      have hrise : kept * rise ≤ (kept + others) * rise := Nat.mul_le_mul_right _ (by omega)
      nlinarith

end Rounded

/-! The rate as a fraction. -/

def price (pool issuance : ℕ) : ℚ := if issuance = 0 then 1 else (pool : ℚ) / issuance

theorem price_nonneg (pool issuance : ℕ) : 0 ≤ price pool issuance := by
  unfold price
  split
  · exact zero_le_one
  · exact div_nonneg (Nat.cast_nonneg _) (Nat.cast_nonneg _)

theorem redeemedFor_bounds (pool issuance shares : ℕ) :
    (redeemedFor pool issuance shares : ℚ) ≤ shares * price pool issuance ∧
      shares * price pool issuance < redeemedFor pool issuance shares + 1 := by
  unfold redeemedFor price
  split
  · simp
  · rename_i hissuance
    have hpos : (0 : ℚ) < issuance := by
      have hne : 0 < issuance := Nat.pos_of_ne_zero hissuance
      exact_mod_cast hne
    rw [← mul_div_assoc]
    constructor
    · rw [le_div_iff₀ hpos]
      exact_mod_cast Nat.div_mul_le_self _ _
    · rw [div_lt_iff₀ hpos]
      have hlt : shares * pool < (shares * pool / issuance + 1) * issuance := by
        rw [Nat.add_mul, Nat.one_mul]
        exact Nat.lt_div_mul_add (Nat.pos_of_ne_zero hissuance)
      exact_mod_cast hlt

theorem mintedFor_worth (hpool : issuance = 0 → pool = 0) (hissuance : pool = 0 → issuance = 0)
    (amount : ℕ) :
    mintedFor pool issuance amount * price pool issuance ≤ amount ∧
      amount ≤ mintedFor pool issuance amount * price pool issuance + price pool issuance := by
  unfold mintedFor price
  split
  · rw [if_pos (hissuance (by assumption))]
    simp
  · rename_i hne
    have hissuance' : issuance ≠ 0 := fun hzero => hne (hpool hzero)
    rw [if_neg hissuance']
    have hpos : 0 < pool := Nat.pos_of_ne_zero hne
    have hpos' : (0 : ℚ) < issuance := by
      have hnz : 0 < issuance := Nat.pos_of_ne_zero hissuance'
      exact_mod_cast hnz
    constructor
    · rw [← mul_div_assoc, div_le_iff₀ hpos']
      exact_mod_cast Nat.div_mul_le_self _ _
    · rw [← mul_div_assoc, ← add_div, le_div_iff₀ hpos']
      have hlt : amount * issuance < amount * issuance / pool * pool + pool :=
        Nat.lt_div_mul_add hpos
      exact_mod_cast hlt.le

theorem price_mint (hpool : issuance = 0 → pool = 0) (hissuance : pool = 0 → issuance = 0)
    (amount : ℕ) :
    let minted := mintedFor pool issuance amount
    price pool issuance ≤ price (pool + amount) (issuance + minted) ∧
      price (pool + amount) (issuance + minted) ≤
        price pool issuance + price pool issuance / (issuance + minted : ℕ) := by
  intro minted
  rcases Nat.eq_zero_or_pos pool with rfl | hpos
  · obtain rfl := hissuance rfl
    have hminted : minted = amount := if_pos rfl
    rw [hminted]
    unfold price
    rcases Nat.eq_zero_or_pos amount with rfl | hamount
    · simp
    · have hne : (amount : ℚ) ≠ 0 := by exact_mod_cast hamount.ne'
      simp [hamount.ne', hne]
  · have hissuance' : 0 < issuance := by
      apply Nat.pos_of_ne_zero
      intro hzero
      exact hpos.ne' (hpool hzero)
    have hrate : RateLe pool issuance (pool + amount) (issuance + minted) := mint_rate hpos amount
    have hbought : amount * issuance < minted * pool + pool := by
      have hminted : minted = amount * issuance / pool := if_neg hpos.ne'
      rw [hminted]
      exact Nat.lt_div_mul_add hpos
    have hpos' : (0 : ℚ) < issuance := by exact_mod_cast hissuance'
    have hafter : (0 : ℚ) < (issuance + minted : ℕ) := by
      have hsum : 0 < issuance + minted := by omega
      exact_mod_cast hsum
    unfold price
    rw [if_neg hissuance'.ne', if_neg (show issuance + minted ≠ 0 by omega)]
    constructor
    · rw [div_le_div_iff₀ hpos' hafter]
      exact_mod_cast hrate
    · rw [div_add_div _ _ hpos'.ne' hafter.ne', div_le_div_iff₀ hafter (by positivity)]
      have hcast : (amount : ℚ) * issuance ≤ minted * pool + pool := by exact_mod_cast hbought.le
      field_simp
      push_cast at hcast hafter ⊢
      nlinarith

theorem redeemedFor_mint (hpool : issuance = 0 → pool = 0) (hissuance : pool = 0 → issuance = 0)
    (amount : ℕ) {held held' : ℕ} {e : ℚ}
    (hleast : (held : ℚ) + mintedFor pool issuance amount ≤ held' + e)
    (hmost : (held' : ℚ) ≤ held + mintedFor pool issuance amount + e) :
    |(redeemedFor (pool + amount) (issuance + mintedFor pool issuance amount) held' : ℚ) -
        (redeemedFor pool issuance held + amount)| ≤
      1 + price pool issuance *
        (1 + e + held' / (issuance + mintedFor pool issuance amount : ℕ)) := by
  obtain ⟨hbought, hbought'⟩ := mintedFor_worth hpool hissuance amount
  obtain ⟨hrate, hrate'⟩ := price_mint hpool hissuance amount
  generalize mintedFor pool issuance amount = minted at *
  obtain ⟨hbefore, hbefore'⟩ := redeemedFor_bounds pool issuance held
  obtain ⟨hafter, hafter'⟩ := redeemedFor_bounds (pool + amount) (issuance + minted) held'
  have hprice := price_nonneg pool issuance
  generalize price (pool + amount) (issuance + minted) = rate' at *
  generalize price pool issuance = rate at *
  have hheld : (0 : ℚ) ≤ held' := Nat.cast_nonneg held'
  have hshares : ((held : ℚ) + minted) * rate ≤ (held' + e) * rate :=
    mul_le_mul_of_nonneg_right hleast hprice
  have hshares' : (held' : ℚ) * rate ≤ (held + minted + e) * rate :=
    mul_le_mul_of_nonneg_right hmost hprice
  have hgain : (held' : ℚ) * rate ≤ held' * rate' := mul_le_mul_of_nonneg_left hrate hheld
  have hgain' : (held' : ℚ) * rate' ≤ held' * (rate + rate / (issuance + minted : ℕ)) :=
    mul_le_mul_of_nonneg_left hrate' hheld
  have hsplit : (held' : ℚ) * (rate + rate / (issuance + minted : ℕ)) =
      held' * rate + rate * (held' / (issuance + minted : ℕ)) := by ring
  have hnonneg : 0 ≤ rate * ((held' : ℚ) / (issuance + minted : ℕ)) :=
    mul_nonneg hprice (div_nonneg hheld (Nat.cast_nonneg _))
  rw [abs_le]
  constructor
  · linarith
  · linarith

theorem redeemedFor_leave {held held' amount : ℕ} {e : ℚ}
    (hleast : (held : ℚ) ≤ held' + amount + e) (hmost : (held' : ℚ) + amount ≤ held + e) :
    |(redeemedFor pool issuance held' : ℚ) -
        (redeemedFor pool issuance held - price pool issuance * amount)| ≤
      1 + price pool issuance * e := by
  obtain ⟨hbefore, hbefore'⟩ := redeemedFor_bounds pool issuance held
  obtain ⟨hafter, hafter'⟩ := redeemedFor_bounds pool issuance held'
  have hprice := price_nonneg pool issuance
  generalize price pool issuance = rate at *
  have hshares : (held : ℚ) * rate ≤ (held' + amount + e) * rate :=
    mul_le_mul_of_nonneg_right hleast hprice
  have hshares' : ((held' : ℚ) + amount) * rate ≤ (held + e) * rate :=
    mul_le_mul_of_nonneg_right hmost hprice
  rw [abs_le]
  constructor
  · linarith
  · linarith

end Bifrost.Shares
