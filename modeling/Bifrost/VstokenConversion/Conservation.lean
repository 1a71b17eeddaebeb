import Bifrost.Lib.Potential
import Bifrost.Lib.Sums
import Bifrost.VstokenConversion.Pallet

/-!
# What conversions do to issuance and to an account

The fee of a bond conversion stays in the pool and is minted once more for the treasury; nothing
else moves the issuance of a bond. Valued at the rates at which vsToken buys bonds, no conversion
makes an account worth more than half a unit of what it gets.
-/

namespace Bifrost.VstokenConversion

open Result Machine
set_option autoImplicit false

variable {AccountId : Type} {cfg : Config AccountId}

def Config.vsToken (cfg : Config AccountId) : CurrencyId :=
  (convertToVstoken cfg.relayCurrencyId).getD cfg.relayCurrencyId

def IsVsBond : CurrencyId → Prop
  | .vsBond .. | .vsBond2 .. => True
  | _ => False

/-- The rate of a bond, where it can be converted. -/
def State.rate (s : State cfg) (vsBond : CurrencyId) : Option ExchangeRate :=
  match remainingDueLease s.relaychainLease vsBond with
  | .ok remaining => some (s.exchangeRate remaining)
  | .error _ => none

/-- What vsToken costs in bonds, in hundredths; zero for what cannot be converted. -/
def State.price (s : State cfg) (vsBond : CurrencyId) : ℕ :=
  ((s.rate vsBond).map fun rate => rate.vstokenConvertToVsbond.parts).getD 0

def State.bondCredit (s : State cfg) (vsBond : CurrencyId) (vsbondAmount : ℕ) : ℕ :=
  ((s.rate vsBond).map fun rate => rate.vsbondConvertToVstoken.mul
    (vsbondAmount - s.exchangeFee.vsbondExchangeFeeOfVstoken)).getD 0

def State.free (s : State cfg) (c : CurrencyId) (x : AccountId) : ℕ :=
  cfg.currency.freeBalance s.ledger c x

def State.issued (s : State cfg) (c : CurrencyId) : ℕ := cfg.currency.totalIssuance s.ledger c

namespace Call

def credited (s : State cfg) : Call AccountId → ℕ
  | .vsbondConvertToVstoken _ vsBond vsbondAmount _ => s.bondCredit vsBond vsbondAmount
  | _ => 0

def burned (s : State cfg) : Call AccountId → ℕ
  | .vstokenConvertToVsbond _ _ vstokenAmount _ => vstokenAmount - s.exchangeFee.vstokenExchangeFee
  | _ => 0

/-- No fee is kept back from a bond. -/
def NoBondFee (s : State cfg) : Call AccountId → Prop
  | .vsbondConvertToVstoken .. => s.exchangeFee.vsbondExchangeFeeOfVstoken = 0
  | _ => True

/-- The lease and the rates stay. -/
def KeepsRates : Call AccountId → Prop
  | .setExchangeRate .. | .setRelaychainLease .. => False
  | _ => True

def bond : Call AccountId → Option CurrencyId
  | .vsbondConvertToVstoken _ vsBond _ _ | .vstokenConvertToVsbond _ vsBond _ _ => some vsBond
  | _ => none

variable [DecidableEq AccountId]

/-- One unit of what the call of an account credits, in hundredths of vsToken. -/
def unit (x : AccountId) (s : State cfg) : Call AccountId → ℕ
  | .vsbondConvertToVstoken (.signed who) _ _ _ => if who = x then 100 else 0
  | .vstokenConvertToVsbond (.signed who) vsBond _ _ => if who = x then s.price vsBond else 0
  | _ => 0

end Call

variable {s s' : State cfg} {exchanger x : AccountId} {vsBond : CurrencyId} {n m : ℕ}
  {call : Call AccountId}

theorem isVsBond_of_remaining {lease : UInt32} {remaining : ℤ}
    (h : remainingDueLease lease vsBond = .ok remaining) : IsVsBond vsBond := by
  simp only [remainingDueLease, bind_eq_ok, okOr_eq_ok] at h
  obtain ⟨expire, hexpire, -⟩ := h
  unfold expireLease at hexpire
  split at hexpire
  · trivial
  · trivial
  · trivial
  · cases hexpire

theorem vsToken_eq {vsToken : CurrencyId} (h : convertToVstoken cfg.relayCurrencyId = some vsToken) :
    cfg.vsToken = vsToken ∧ ¬IsVsBond vsToken := by
  refine ⟨by rw [Config.vsToken, h, Option.getD_some], ?_⟩
  unfold convertToVstoken at h
  split at h
  · obtain rfl := Option.some.inj h
    exact fun hbond => hbond
  · obtain rfl := Option.some.inj h
    exact fun hbond => hbond
  · cases h

theorem vsbondConvert_ok (h : s.vsbondConvertToVstoken exchanger vsBond n m = .ok s') :
    ∃ rate L₁ L₂ L₃, s.rate vsBond = some rate ∧ IsVsBond vsBond ∧ ¬IsVsBond cfg.vsToken ∧
      s.exchangeFee.vsbondExchangeFeeOfVstoken ≤ n ∧
      cfg.currency.transfer s.ledger vsBond exchanger cfg.vsbondAccount n = .ok L₁ ∧
      cfg.currency.deposit L₁ cfg.vsToken exchanger (rate.vsbondConvertToVstoken.mul
        (n - s.exchangeFee.vsbondExchangeFeeOfVstoken)) = .ok L₂ ∧
      cfg.currency.deposit L₂ vsBond cfg.treasuryAccount
        s.exchangeFee.vsbondExchangeFeeOfVstoken = .ok L₃ ∧ s' = { s with ledger := L₃ } := by
  simp only [State.vsbondConvertToVstoken, bind_eq_ok, ensure_eq_ok, exists_const, okOr_eq_ok,
    mapErr_eq_ok, U128.checkedSub_eq_some, pure_eq_ok] at h
  obtain ⟨-, -, remaining, hremaining, _, ⟨hfee, rfl⟩, -, L₁, htransfer, vsToken, hvsToken, L₂,
    hcredit, L₃, hkept, rfl⟩ := h
  obtain ⟨rfl, hnot⟩ := vsToken_eq hvsToken
  have hbond := isVsBond_of_remaining hremaining
  refine ⟨s.exchangeRate remaining, L₁, L₂, L₃, ?_, hbond, hnot, hfee, htransfer, hcredit, hkept,
    rfl⟩
  simp only [State.rate, hremaining]

theorem vstokenConvert_ok (h : s.vstokenConvertToVsbond exchanger vsBond n m = .ok s') :
    ∃ rate out L₁ L₂ L₃, s.rate vsBond = some rate ∧ IsVsBond vsBond ∧ ¬IsVsBond cfg.vsToken ∧
      rate.vstokenConvertToVsbond.parts ≠ 0 ∧ s.exchangeFee.vstokenExchangeFee ≤ n ∧
      rate.vstokenConvertToVsbond.saturatingReciprocalMul (n - s.exchangeFee.vstokenExchangeFee) =
        some out ∧
      cfg.currency.transfer s.ledger vsBond cfg.vsbondAccount exchanger out = .ok L₁ ∧
      cfg.currency.withdraw L₁ cfg.vsToken exchanger n = .ok L₂ ∧
      cfg.currency.deposit L₂ cfg.vsToken cfg.treasuryAccount
        s.exchangeFee.vstokenExchangeFee = .ok L₃ ∧ s' = { s with ledger := L₃ } := by
  simp only [State.vstokenConvertToVsbond, bind_eq_ok, ensure_eq_ok, exists_const, okOr_eq_ok,
    mapErr_eq_ok, U128.checkedSub_eq_some, pure_eq_ok] at h
  obtain ⟨vsToken, hvsToken, -, -, remaining, hremaining, hrate, _, ⟨hfee, rfl⟩, out, hout, -, L₁,
    htransfer, L₂, hburn, L₃, hkept, rfl⟩ := h
  obtain ⟨rfl, hnot⟩ := vsToken_eq hvsToken
  have hbond := isVsBond_of_remaining hremaining
  have hparts : (s.exchangeRate remaining).vstokenConvertToVsbond.parts ≠ 0 := by
    intro hzero
    apply hrate
    cases hpercent : (s.exchangeRate remaining).vstokenConvertToVsbond with
    | mk parts hle =>
      rw [hpercent] at hzero
      subst hzero
      rfl
  refine ⟨s.exchangeRate remaining, out, L₁, L₂, L₃, ?_, hbond, hnot, hparts, hfee, hout, htransfer,
    hburn, hkept, rfl⟩
  simp only [State.rate, hremaining]

/-! The issuance. -/

theorem vsbondConvert_issued (h : s.vsbondConvertToVstoken exchanger vsBond n m = .ok s')
    (d : CurrencyId) : s'.issued d = s.issued d +
      (if d = cfg.vsToken then s.bondCredit vsBond n else 0) +
      if d = vsBond then s.exchangeFee.vsbondExchangeFeeOfVstoken else 0 := by
  obtain ⟨rate, L₁, L₂, L₃, hrate, -, -, -, htransfer, hcredit, hkept, rfl⟩ := vsbondConvert_ok h
  have hissued : (State.mk s.relaychainLease s.exchangeRate s.exchangeFee L₃).issued d =
      cfg.currency.totalIssuance L₃ d := rfl
  rw [hissued, cfg.currency.deposit_issuance hkept, cfg.currency.deposit_issuance hcredit,
    cfg.currency.transfer_issuance htransfer]
  simp only [State.bondCredit, hrate, Option.map_some, Option.getD_some]
  rfl

theorem vstokenConvert_issued (h : s.vstokenConvertToVsbond exchanger vsBond n m = .ok s')
    (d : CurrencyId) :
    s'.issued d + (if d = cfg.vsToken then n - s.exchangeFee.vstokenExchangeFee else 0) =
      s.issued d := by
  obtain ⟨rate, out, L₁, L₂, L₃, -, -, -, -, hfee, -, htransfer, hburn, hkept, rfl⟩ :=
    vstokenConvert_ok h
  have hafter := cfg.currency.deposit_issuance hkept d
  have hburned := cfg.currency.withdraw_issuance hburn d
  rw [cfg.currency.transfer_issuance htransfer] at hburned
  change cfg.currency.totalIssuance L₃ d + _ = cfg.currency.totalIssuance s.ledger d
  by_cases hd : d = cfg.vsToken
  · rw [if_pos hd] at hafter hburned ⊢
    omega
  · rw [if_neg hd] at hafter hburned ⊢
    omega

theorem control_ledger (h : step s call = .ok s')
    (hbond : call.bond = none) : s'.ledger = s.ledger ∧
      (call.KeepsRates → s'.relaychainLease = s.relaychainLease ∧
        s'.exchangeRate = s.exchangeRate) := by
  cases call with
  | vsbondConvertToVstoken | vstokenConvertToVsbond => cases hbond
  | setExchangeFee origin exchangeFee =>
    simp only [step, bind_eq_ok, pure_eq_ok] at h
    obtain ⟨-, -, rfl⟩ := h
    exact ⟨rfl, fun _ => ⟨rfl, rfl⟩⟩
  | setExchangeRate origin lease exchangeRate =>
    simp only [step, bind_eq_ok, pure_eq_ok] at h
    obtain ⟨-, -, rfl⟩ := h
    exact ⟨rfl, fun hkeeps => hkeeps.elim⟩
  | setRelaychainLease origin lease =>
    simp only [step, bind_eq_ok, pure_eq_ok] at h
    obtain ⟨-, -, rfl⟩ := h
    exact ⟨rfl, fun hkeeps => hkeeps.elim⟩

theorem convert_ok (h : step s call = .ok s') (hbond : call.bond = some vsBond) :
    (∃ who n m, call = .vsbondConvertToVstoken (.signed who) vsBond n m ∧
        s.vsbondConvertToVstoken who vsBond n m = .ok s') ∨
      ∃ who n m, call = .vstokenConvertToVsbond (.signed who) vsBond n m ∧
        s.vstokenConvertToVsbond who vsBond n m = .ok s' := by
  cases call with
  | vsbondConvertToVstoken origin b n m =>
    obtain rfl := Option.some.inj hbond
    simp only [step, bind_eq_ok] at h
    obtain ⟨who, hwho, h⟩ := h
    cases origin with
    | signed y =>
      obtain rfl := Except.ok.inj hwho
      exact Or.inl ⟨y, n, m, rfl, h⟩
    | control => cases hwho
  | vstokenConvertToVsbond origin b n m =>
    obtain rfl := Option.some.inj hbond
    simp only [step, bind_eq_ok] at h
    obtain ⟨who, hwho, h⟩ := h
    cases origin with
    | signed y =>
      obtain rfl := Except.ok.inj hwho
      exact Or.inr ⟨y, n, m, rfl, h⟩
    | control => cases hwho
  | setExchangeFee | setExchangeRate | setRelaychainLease => cases hbond

theorem bonds_issued_iff (h : step s call = .ok s') {issuance : CurrencyId → ℕ}
    (hs : ∀ c, IsVsBond c → s.issued c = issuance c) :
    (∀ c, IsVsBond c → s'.issued c = issuance c) ↔ call.NoBondFee s := by
  cases hcall : call.bond with
  | none =>
    have hsame : ∀ c, s'.issued c = s.issued c := by
      intro c
      rw [State.issued, (control_ledger h hcall).1]
      rfl
    refine iff_of_true (fun c hc => (hsame c).trans (hs c hc)) ?_
    cases call with
    | vsbondConvertToVstoken => cases hcall
    | vstokenConvertToVsbond | setExchangeFee | setExchangeRate | setRelaychainLease => trivial
  | some vsBond =>
    rcases convert_ok h hcall with ⟨who, n, m, rfl, hconvert⟩ | ⟨who, n, m, rfl, hconvert⟩
    · obtain ⟨-, -, -, -, -, hbond, hnot, -⟩ := vsbondConvert_ok hconvert
      have hissued := vsbondConvert_issued hconvert
      have hne : ∀ c, IsVsBond c → c ≠ cfg.vsToken := fun c hc heq => hnot (heq ▸ hc)
      constructor
      · intro hall
        have hself := hissued vsBond
        rw [hall vsBond hbond, hs vsBond hbond, if_neg (hne vsBond hbond), if_pos rfl] at hself
        change s.exchangeFee.vsbondExchangeFeeOfVstoken = 0
        omega
      · intro hfee c hc
        have hfee : s.exchangeFee.vsbondExchangeFeeOfVstoken = 0 := hfee
        rw [hissued c, if_neg (hne c hc), hfee, hs c hc, ite_self]
        rfl
    · obtain ⟨-, -, -, -, -, -, -, hnot, -⟩ := vstokenConvert_ok hconvert
      have hissued := vstokenConvert_issued hconvert
      refine iff_of_true ?_ trivial
      intro c hc
      have hne : c ≠ cfg.vsToken := fun heq => hnot (heq ▸ hc)
      have hsame := hissued c
      rw [if_neg hne] at hsame
      exact hsame.trans (hs c hc)

theorem vsToken_issued (h : step s call = .ok s') :
    s'.issued cfg.vsToken + call.burned s = s.issued cfg.vsToken + call.credited s := by
  cases hcall : call.bond with
  | none =>
    rw [State.issued, (control_ledger h hcall).1]
    cases call with
    | vsbondConvertToVstoken | vstokenConvertToVsbond => cases hcall
    | setExchangeFee | setExchangeRate | setRelaychainLease => rfl
  | some vsBond =>
    rcases convert_ok h hcall with ⟨who, n, m, rfl, hconvert⟩ | ⟨who, n, m, rfl, hconvert⟩
    · obtain ⟨-, -, -, -, -, hbond, hnot, -⟩ := vsbondConvert_ok hconvert
      have hne : cfg.vsToken ≠ vsBond := fun heq => hnot (heq ▸ hbond)
      rw [vsbondConvert_issued hconvert, if_pos rfl, if_neg hne]
      rfl
    · have hissued := vstokenConvert_issued hconvert cfg.vsToken
      rw [if_pos rfl] at hissued
      exact hissued

/-! One account. -/

section Account

variable (hpool : x ≠ cfg.vsbondAccount) (htreasury : x ≠ cfg.treasuryAccount)
  (hdust : x ≠ cfg.currency.dustReceiver) {bonds : List CurrencyId}
include hpool htreasury hdust

omit hdust in
theorem vsbondConvert_own (h : s.vsbondConvertToVstoken x vsBond n m = .ok s') :
    s'.free vsBond x + n ≤ s.free vsBond x ∧
      s'.free cfg.vsToken x = s.free cfg.vsToken x + s.bondCredit vsBond n ∧
      ∀ d, d ≠ vsBond → d ≠ cfg.vsToken → s'.free d x = s.free d x := by
  obtain ⟨rate, L₁, L₂, L₃, hrate, hbond, hnot, -, htransfer, hcredit, hkept, rfl⟩ :=
    vsbondConvert_ok h
  have hne : vsBond ≠ cfg.vsToken := fun heq => hnot (heq ▸ hbond)
  have hfee (d : CurrencyId) := cfg.currency.deposit_frame (d := d) hkept (Or.inr htreasury)
  refine ⟨?_, ?_, fun d hd hd' => ?_⟩
  · have hpaid := cfg.currency.transfer_debits htransfer hpool
    change cfg.currency.freeBalance L₃ vsBond x + n ≤ _
    rw [hfee, cfg.currency.deposit_frame hcredit (Or.inl hne)]
    exact hpaid
  · change cfg.currency.freeBalance L₃ cfg.vsToken x = _
    rw [hfee, cfg.currency.deposit_credits hcredit,
      cfg.currency.transfer_frame htransfer (Or.inr (Or.inl hne.symm))]
    simp only [State.bondCredit, hrate, Option.map_some, Option.getD_some]
    rfl
  · change cfg.currency.freeBalance L₃ d x = _
    rw [hfee, cfg.currency.deposit_frame hcredit (Or.inl hd'),
      cfg.currency.transfer_frame htransfer (Or.inr (Or.inl hd))]
    rfl

theorem vsbondConvert_other (h : s.vsbondConvertToVstoken exchanger vsBond n m = .ok s')
    (hx : x ≠ exchanger) (d : CurrencyId) : s'.free d x = s.free d x := by
  obtain ⟨rate, L₁, L₂, L₃, -, -, -, -, htransfer, hcredit, hkept, rfl⟩ := vsbondConvert_ok h
  change cfg.currency.freeBalance L₃ d x = _
  rw [cfg.currency.deposit_frame hkept (Or.inr htreasury),
    cfg.currency.deposit_frame hcredit (Or.inr hx),
    cfg.currency.transfer_frame htransfer (Or.inr (Or.inr ⟨hx, hpool, hdust⟩))]
  rfl

theorem vstokenConvert_own (h : s.vstokenConvertToVsbond x vsBond n m = .ok s') :
    ∃ out, s.price vsBond ≠ 0 ∧
      s.price vsBond * out ≤ (n - s.exchangeFee.vstokenExchangeFee) * 100 + s.price vsBond ∧
      s'.free vsBond x = s.free vsBond x + out ∧
      s'.free cfg.vsToken x + n ≤ s.free cfg.vsToken x ∧
      ∀ d, d ≠ vsBond → d ≠ cfg.vsToken → s'.free d x = s.free d x := by
  obtain ⟨rate, out, L₁, L₂, L₃, hrate, hbond, hnot, hparts, -, hout, htransfer, hburn, hkept,
    rfl⟩ := vstokenConvert_ok h
  have hne : vsBond ≠ cfg.vsToken := fun heq => hnot (heq ▸ hbond)
  have hprice : s.price vsBond = rate.vstokenConvertToVsbond.parts := by
    rw [State.price, hrate]
    rfl
  have hfee (d : CurrencyId) := cfg.currency.deposit_frame (d := d) hkept (Or.inr htreasury)
  refine ⟨out, hprice ▸ hparts, ?_, ?_, ?_, fun d hd hd' => ?_⟩
  · have hle := PerThing.parts_mul_saturatingReciprocalMul_le hout
    rw [hprice]
    exact hle.trans (Nat.add_le_add_left (Nat.div_le_self _ 2) _)
  · change cfg.currency.freeBalance L₃ vsBond x = _
    rw [hfee, cfg.currency.withdraw_frame hburn (Or.inl hne),
      cfg.currency.transfer_credits htransfer hpool.symm hdust]
    rfl
  · have hburned := cfg.currency.withdraw_debits hburn
    rw [cfg.currency.transfer_frame htransfer (Or.inr (Or.inl hne.symm))] at hburned
    change cfg.currency.freeBalance L₃ cfg.vsToken x + n ≤ _
    rw [hfee]
    exact hburned
  · change cfg.currency.freeBalance L₃ d x = _
    rw [hfee, cfg.currency.withdraw_frame hburn (Or.inl hd'),
      cfg.currency.transfer_frame htransfer (Or.inr (Or.inl hd))]
    rfl

theorem vstokenConvert_other (h : s.vstokenConvertToVsbond exchanger vsBond n m = .ok s')
    (hx : x ≠ exchanger) (d : CurrencyId) : s'.free d x = s.free d x := by
  obtain ⟨rate, out, L₁, L₂, L₃, -, -, -, -, -, -, htransfer, hburn, hkept, rfl⟩ :=
    vstokenConvert_ok h
  change cfg.currency.freeBalance L₃ d x = _
  rw [cfg.currency.deposit_frame hkept (Or.inr htreasury),
    cfg.currency.withdraw_frame hburn (Or.inr ⟨hx, hdust⟩),
    cfg.currency.transfer_frame htransfer (Or.inr (Or.inr ⟨hpool, hx, hdust⟩))]
  rfl

/-! What an account is worth. -/

/-- The vsToken and the bonds of an account, in hundredths of vsToken. -/
def worth (price : CurrencyId → ℕ) (bonds : List CurrencyId) (x : AccountId) (s : State cfg) : ℕ :=
  100 * s.free cfg.vsToken x + (bonds.map fun c => price c * s.free c x).sum

/-- The lease and the rates that a run keeps. -/
def SameRates (s t : State cfg) : Prop :=
  t.relaychainLease = s.relaychainLease ∧ t.exchangeRate = s.exchangeRate

omit hpool htreasury hdust in
theorem SameRates.rate_eq (h : SameRates s s') : s'.rate = s.rate := by
  funext c
  rw [State.rate, State.rate, h.1, h.2]

omit hpool htreasury hdust in
theorem SameRates.price_eq (h : SameRates s s') : s'.price = s.price := by
  funext c
  rw [State.price, State.price, h.rate_eq]

omit hpool htreasury hdust in
theorem step_sameRates (h : step s call = .ok s') (hkeeps : call.KeepsRates) : SameRates s s' := by
  cases hcall : call.bond with
  | none => exact (control_ledger h hcall).2 hkeeps
  | some vsBond =>
    rcases convert_ok h hcall with ⟨who, n, m, rfl, hconvert⟩ | ⟨who, n, m, rfl, hconvert⟩
    · obtain ⟨-, -, -, -, -, -, -, -, -, -, -, rfl⟩ := vsbondConvert_ok hconvert
      exact ⟨rfl, rfl⟩
    · obtain ⟨-, -, -, -, -, -, -, -, -, -, -, -, -, -, rfl⟩ := vstokenConvert_ok hconvert
      exact ⟨rfl, rfl⟩

omit hpool htreasury hdust in
theorem worth_congr {price : CurrencyId → ℕ}
    (h : ∀ d, s'.free d x = s.free d x) : worth price bonds x s' = worth price bonds x s := by
  simp only [worth, h]

omit hpool htreasury hdust in
theorem worth_convert (price : CurrencyId → ℕ) (hnodup : bonds.Nodup)
    (hmem : vsBond ∈ bonds) (hnot : cfg.vsToken ∉ bonds)
    (hframe : ∀ d, d ≠ vsBond → d ≠ cfg.vsToken → s'.free d x = s.free d x) :
    worth price bonds x s' + price vsBond * s.free vsBond x + 100 * s.free cfg.vsToken x =
      worth price bonds x s + price vsBond * s'.free vsBond x + 100 * s'.free cfg.vsToken x := by
  have hsum := Sums.sum_add_of_forall_mem (f := fun c => price c * s'.free c x)
    (g := fun c => price c * s.free c x) hnodup hmem ?_
  · simp only [worth]
    omega
  · intro d hd hne
    have hother : d ≠ cfg.vsToken := fun heq => hnot (heq ▸ hd)
    rw [hframe d hne hother]

omit hpool htreasury hdust in
theorem worth_gain (price : CurrencyId → ℕ) (hnodup : bonds.Nodup)
    (hmem : vsBond ∈ bonds) (hmore : s.free vsBond x ≤ s'.free vsBond x)
    (hrest : ∀ c, c ≠ vsBond → s.free c x ≤ s'.free c x) (hnot : cfg.vsToken ≠ vsBond) :
    worth price bonds x s + price vsBond * (s'.free vsBond x - s.free vsBond x) ≤
      worth price bonds x s' := by
  have hsum := Sums.sum_add_le_of_mem (f := fun c => price c * s.free c x)
    (g := fun c => price c * s'.free c x) hnodup hmem
    fun c _ hc => Nat.mul_le_mul_left (price c) (hrest c hc)
  have htoken := hrest cfg.vsToken hnot
  have hgain : price vsBond * (s'.free vsBond x - s.free vsBond x) + price vsBond * s.free vsBond x =
      price vsBond * s'.free vsBond x := by
    rw [← Nat.mul_add, Nat.sub_add_cancel hmore]
  simp only [worth]
  omega

variable [DecidableEq AccountId]

/-- A conversion makes its account worth one unit more at most, and no other account. -/
theorem worth_step (hnodup : bonds.Nodup) (hbonds : ∀ c ∈ bonds, IsVsBond c)
    (hcall : ∀ c, call.bond = some c → IsVsBond c → c ∈ bonds)
    (hrates : ∀ lease, (s.exchangeRate lease).vsbondConvertToVstoken.parts ≤
      (s.exchangeRate lease).vstokenConvertToVsbond.parts)
    (h : step s call = .ok s') :
    worth s.price bonds x s' ≤ worth s.price bonds x s + call.unit x s := by
  cases hbond : call.bond with
  | none =>
    have hsame : ∀ d, s'.free d x = s.free d x := by
      intro d
      rw [State.free, (control_ledger h hbond).1]
      rfl
    rw [worth_congr hsame]
    exact Nat.le_add_right _ _
  | some vsBond =>
    rcases convert_ok h hbond with ⟨who, n, m, rfl, hconvert⟩ | ⟨who, n, m, rfl, hconvert⟩
    · by_cases hwho : x = who
      · subst hwho
        obtain ⟨rate, -, -, -, hrate, hisbond, hnot, hfee, -⟩ := vsbondConvert_ok hconvert
        obtain ⟨hpaid, hgot, hframe⟩ := vsbondConvert_own hpool htreasury hconvert
        have hchange := worth_convert s.price hnodup (hcall vsBond hbond hisbond)
          (fun hin => hnot (hbonds _ hin)) hframe
        have hunit : Call.unit x s (.vsbondConvertToVstoken (.signed x) vsBond n m) = 100 :=
          if_pos rfl
        have hcredit : 100 * s.bondCredit vsBond n ≤ s.price vsBond * n + 100 := by
          obtain ⟨remaining, hremaining⟩ : ∃ remaining, rate = s.exchangeRate remaining := by
            unfold State.rate at hrate
            split at hrate
            · exact ⟨_, (Option.some.inj hrate).symm⟩
            · cases hrate
          have hle := hrates remaining
          rw [← hremaining] at hle
          simp only [State.bondCredit, State.price, hrate, Option.map_some, Option.getD_some]
          have hround := PerThing.accuracy_mul_mulNearest_le (by decide : 0 < 100)
            rate.vsbondConvertToVstoken.parts (n - s.exchangeFee.vsbondExchangeFeeOfVstoken)
          have hprice : (n - s.exchangeFee.vsbondExchangeFeeOfVstoken) *
              rate.vsbondConvertToVstoken.parts ≤ rate.vstokenConvertToVsbond.parts * n := by
            rw [Nat.mul_comm]
            exact Nat.mul_le_mul hle (Nat.sub_le _ _)
          change 100 * PerThing.mulNearest 100 _ _ ≤ _
          omega
        have hbondpaid := Nat.mul_le_mul_left (s.price vsBond) hpaid
        rw [Nat.mul_add] at hbondpaid
        rw [hunit]
        rw [hgot] at hchange
        omega
      · rw [worth_congr fun d => vsbondConvert_other hpool htreasury hdust hconvert hwho d]
        exact Nat.le_add_right _ _
    · by_cases hwho : x = who
      · subst hwho
        obtain ⟨-, -, -, -, -, -, hisbond, hnot, -⟩ := vstokenConvert_ok hconvert
        obtain ⟨out, -, hout, hgot, hpaid, hframe⟩ :=
          vstokenConvert_own hpool htreasury hdust hconvert
        have hchange := worth_convert s.price hnodup (hcall vsBond hbond hisbond)
          (fun hin => hnot (hbonds _ hin)) hframe
        have hunit : Call.unit x s (.vstokenConvertToVsbond (.signed x) vsBond n m) =
            s.price vsBond := if_pos rfl
        have hless := Nat.sub_le n s.exchangeFee.vstokenExchangeFee
        rw [hunit]
        rw [hgot, Nat.mul_add] at hchange
        omega
      · rw [worth_congr fun d => vstokenConvert_other hpool htreasury hdust hconvert hwho d]
        exact Nat.le_add_right _ _

theorem free_step_of_price_zero (hbond : IsVsBond vsBond)
    (hprice : s.price vsBond = 0 ∨ IsVsBond cfg.vsToken) (h : step s call = .ok s') :
    s'.free vsBond x ≤ s.free vsBond x := by
  cases hcall : call.bond with
  | none =>
    rw [State.free, (control_ledger h hcall).1]
    exact Nat.le_refl _
  | some c =>
    rcases convert_ok h hcall with ⟨who, n, m, rfl, hconvert⟩ | ⟨who, n, m, rfl, hconvert⟩
    · by_cases hwho : x = who
      · subst hwho
        obtain ⟨-, -, -, -, -, -, hnot, -⟩ := vsbondConvert_ok hconvert
        obtain ⟨hpaid, -, hframe⟩ := vsbondConvert_own hpool htreasury hconvert
        by_cases hc : vsBond = c
        · subst hc
          omega
        · exact (hframe vsBond hc fun heq => hnot (heq ▸ hbond)).le
      · exact (vsbondConvert_other hpool htreasury hdust hconvert hwho vsBond).le
    · by_cases hwho : x = who
      · subst hwho
        obtain ⟨-, -, -, -, -, -, -, hnot, -⟩ := vstokenConvert_ok hconvert
        obtain ⟨out, hne, -, -, -, hframe⟩ := vstokenConvert_own hpool htreasury hdust hconvert
        have hc : vsBond ≠ c := by
          rintro rfl
          exact hprice.elim hne hnot
        exact (hframe vsBond hc fun heq => hnot (heq ▸ hbond)).le
      · exact (vstokenConvert_other hpool htreasury hdust hconvert hwho vsBond).le

omit hpool htreasury hdust [DecidableEq AccountId] in
theorem exists_bonds (hbond : IsVsBond vsBond) (calls : List (Call AccountId)) :
    ∃ bonds : List CurrencyId, bonds.Nodup ∧ vsBond ∈ bonds ∧ (∀ c ∈ bonds, IsVsBond c) ∧
      ∀ call ∈ calls, ∀ c, call.bond = some c → IsVsBond c → c ∈ bonds := by
  classical
  refine ⟨(vsBond :: (calls.filterMap Call.bond).filter IsVsBond).dedup, List.nodup_dedup _, ?_,
    ?_, ?_⟩
  · exact List.mem_dedup.mpr List.mem_cons_self
  · intro c hc
    rcases List.mem_cons.mp (List.mem_dedup.mp hc) with rfl | hc
    · exact hbond
    · exact of_decide_eq_true (List.mem_filter.mp hc).2
  · intro call hcall c hc hisbond
    apply List.mem_dedup.mpr
    apply List.mem_cons_of_mem
    exact List.mem_filter.mpr ⟨List.mem_filterMap.mpr ⟨call, hcall, hc⟩, decide_eq_true hisbond⟩

theorem gain_le {calls : List (Call AccountId)} (hkeeps : ∀ call ∈ calls, call.KeepsRates)
    (hrates : ∀ lease, (s.exchangeRate lease).vsbondConvertToVstoken.parts ≤
      (s.exchangeRate lease).vstokenConvertToVsbond.parts)
    (hbond : IsVsBond vsBond)
    (hrest : ∀ c, c ≠ vsBond → s.free c x ≤ (run step s calls).free c x) :
    (run step s calls).free vsBond x ≤ s.free vsBond x ∨ 0 < s.price vsBond ∧
      s.price vsBond * ((run step s calls).free vsBond x - s.free vsBond x) ≤
        total step (Call.unit x) s calls := by
  have hmeets : Meets step (fun _ call => call.KeepsRates) s calls :=
    meets_of_forall calls (fun call hcall _ => hkeeps call hcall) s
  by_cases hnone : s.price vsBond = 0 ∨ IsVsBond cfg.vsToken
  · left
    have hrun := run_invariant
      (I := fun t : State cfg => SameRates s t ∧ t.free vsBond x ≤ s.free vsBond x)
      (fun t call t' ht hcall h => by
        have hsame := step_sameRates h hcall
        refine ⟨⟨hsame.1.trans ht.1.1, hsame.2.trans ht.1.2⟩, ?_⟩
        have hprice : t.price vsBond = 0 ∨ IsVsBond cfg.vsToken := by
          rw [ht.1.price_eq]
          exact hnone
        exact (free_step_of_price_zero hpool htreasury hdust hbond hprice h).trans ht.2)
      calls ⟨⟨rfl, rfl⟩, Nat.le_refl _⟩ hmeets
    exact hrun.2
  · right
    rw [not_or] at hnone
    refine ⟨Nat.pos_of_ne_zero hnone.1, ?_⟩
    rcases Nat.lt_or_ge ((run step s calls).free vsBond x) (s.free vsBond x) with hless | hmore
    · rw [Nat.sub_eq_zero_of_le hless.le, Nat.mul_zero]
      exact Nat.zero_le _
    obtain ⟨bonds, hnodup, hmem, hbonds, hcalls⟩ := exists_bonds hbond calls
    have hworth : worth s.price bonds x (run step s calls) ≤
        worth s.price bonds x s + total step (Call.unit x) s calls := by
      refine run_le_add_total (I := SameRates s) (fun call => call.KeepsRates ∧
        ∀ c, call.bond = some c → IsVsBond c → c ∈ bonds) ?_ ⟨rfl, rfl⟩
        fun call hcall => ⟨hkeeps call hcall, hcalls call hcall⟩
      intro t call t' ht hcall h
      have hsame := step_sameRates h hcall.1
      refine ⟨⟨hsame.1.trans ht.1, hsame.2.trans ht.2⟩, ?_⟩
      rw [← ht.price_eq]
      exact worth_step hpool htreasury hdust hnodup hbonds hcall.2 (ht.2 ▸ hrates) h
    have hgain := worth_gain s.price hnodup hmem hmore hrest fun heq => hnone.2 (heq ▸ hbond)
    omega

end Account

/-- No account but the pool's and the treasury's gains by conversions more of a bond, and loses
nothing else, than a unit for each of its own. -/
def NoGain [DecidableEq AccountId] (s : State cfg) (calls : List (Call AccountId)) : Prop :=
  (∀ call ∈ calls, call.KeepsRates) →
  (∀ lease, (s.exchangeRate lease).vsbondConvertToVstoken.parts ≤
    (s.exchangeRate lease).vstokenConvertToVsbond.parts) →
  ∀ x vsBond, x ≠ cfg.vsbondAccount → x ≠ cfg.treasuryAccount → x ≠ cfg.currency.dustReceiver →
    IsVsBond vsBond → (∀ c, c ≠ vsBond → s.free c x ≤ (run step s calls).free c x) →
    (run step s calls).free vsBond x ≤ s.free vsBond x ∨ 0 < s.price vsBond ∧
      s.price vsBond * ((run step s calls).free vsBond x - s.free vsBond x) ≤
        total step (Call.unit x) s calls

/-- The bonds stay as they were issued exactly if no fee is kept back from a bond; vsToken is issued
as it is credited and burned net of fees, and no account gains. -/
theorem conversions_conserve [DecidableEq AccountId] (s : State cfg)
    (calls : List (Call AccountId)) :
    (Always step (fun t => ∀ c, IsVsBond c → t.issued c = s.issued c) s calls ↔
        Meets step (fun t call => call.NoBondFee t) s calls) ∧
      (run step s calls).issued cfg.vsToken + total step Call.burned s calls =
        s.issued cfg.vsToken + total step Call.credited s calls ∧
      NoGain s calls := by
  refine ⟨?_, ?_, ?_⟩
  · have hstep (t : State cfg) (call : Call AccountId) (t' : State cfg) (_ : True) (_ : True)
        (ht : ∀ c, IsVsBond c → t.issued c = s.issued c) (h : step t call = .ok t') :
        ((∀ c, IsVsBond c → t'.issued c = s.issued c) ↔ call.NoBondFee t) ∧
          ((∀ c, IsVsBond c → t'.issued c = s.issued c) → True) :=
      ⟨bonds_issued_iff h ht, fun _ => trivial⟩
    exact always_iff_meets hstep (fun _ _ => trivial) trivial fun _ _ => rfl
  · have hstep (t : State cfg) (call : Call AccountId) (t' : State cfg) (h : step t call = .ok t') :
        t'.issued cfg.vsToken + Call.burned t call = t.issued cfg.vsToken + Call.credited t call :=
      vsToken_issued h
    exact run_add_total (f := fun t => t.issued cfg.vsToken) hstep calls s
  · intro hkeeps hrates x vsBond hpool htreasury hdust hbond hrest
    exact gain_le hpool htreasury hdust hkeeps hrates hbond hrest

namespace Sample

def config : Config ℕ where
  currency := Tokens.circulation ℕ 20
  relayCurrencyId := .token .KSM
  treasuryAccount := 20
  vsbondAccount := 30

def bond : CurrencyId := .vsBond .KSM 2001 5 12

/-- Every rate is a half one way and the whole the other; a bond conversion keeps back 10. -/
def start : State config where
  relaychainLease := 10
  exchangeRate := fun _ => ⟨.fromPercent 50, .fromPercent 100⟩
  exchangeFee := ⟨0, 10⟩
  ledger :=
    { accounts := fun c x => if c = bond ∧ x = 1 then 100 else 0
      issuance := fun c => if c = bond then 100 else 0 }

end Sample

/-- A fee of 10 is in the pool and with the treasury. -/
theorem bond_fee_is_minted :
    ¬Always step (fun t => ∀ c, IsVsBond c → t.issued c = Sample.start.issued c) Sample.start
      [.vsbondConvertToVstoken (.signed 1) Sample.bond 100 0] := by
  intro halways
  have hissued := halways.2 Sample.bond trivial
  revert hissued
  decide

end Bifrost.VstokenConversion
