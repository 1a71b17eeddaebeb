import Bifrost.Lib.Potential
import Bifrost.Slpx.Pallet
import Bifrost.VtokenMinting.Agreement

/-!
# The cap on what asynchronous mints issue

A window of blocks lets through at most two executions, whatever else happens. The share of the
pool is compared after rounding, and an attempt above it has already used up an execution of its
window: the cap holds exactly where no attempt that the window lets through is above its share.
-/

namespace Bifrost

open Result Machine VtokenMinting Shares
set_option autoImplicit false

theorem FixedU128.fromRational_cases (n d : ℕ) : fromRational n d = none ∨
    d ≠ 0 ∧ ∃ ratio, fromRational n d = some ratio ∧
      ratio.inner = PerThing.mulNearest d accuracy n := by
  unfold fromRational
  split
  · exact Or.inl rfl
  · simp only
    split
    · exact Or.inr ⟨by assumption, _, rfl, rfl⟩
    · exact Or.inl rfl

namespace Slpx

variable {AccountId : Type} [DecidableEq AccountId] {cfg : Config AccountId}

/-- What was issued, in which window, and the pool and the share allowed at that moment. -/
structure Issue where
  vCurrencyId : CurrencyId
  fromChainId : ℕ
  window : ℕ
  amount : ℕ
  pool : ℕ
  limit : FixedU128
deriving DecidableEq

def Call.currency : Call cfg → Option CurrencyId
  | .asyncMint _ c _ _ _ | .operatorAsyncMint _ c _ _ _ => some c
  | .forceIncreaseHyperbridgeReserve _ _ c _ => some c
  | .updateAsyncMintConfig .. | .minting _ => none

abbrev Move (cfg : Config AccountId) := BlockNumber cfg × Call cfg

def shown (s : State cfg) (a : Move cfg) : List (Event AccountId) :=
  (exec step s a).events.drop s.events.length

def issued (s : State cfg) (a : Move cfg) : Option Issue :=
  let s' := exec step s a
  match (shown s a).getLast?, a.2.currency with
  | some (.asyncMintExecuted _ chain v _ additional), some c =>
    if additional = 0 then none
    else some ⟨v, chain, (s'.asyncMintExecutions (v, chain)).1, additional,
      s'.minting.getTokenPool c, s'.asyncMintConfig.maxIssuanceRatio⟩
  | _, _ => none

def issuedIn (v : CurrencyId) (chain window : ℕ) (s : State cfg) (a : Move cfg) : ℕ :=
  match issued s a with
  | some i => if i.vCurrencyId = v ∧ i.fromChainId = chain ∧ i.window = window then 1 else 0
  | none => 0

def issuedOf (v : CurrencyId) (s : State cfg) (a : Move cfg) : ℕ :=
  match issued s a with
  | some i => if i.vCurrencyId = v then i.amount else 0
  | none => 0

/-- What vtoken-minting alone makes of a call. -/
def State.minted (s : State cfg) : Call cfg → VtokenMinting.State cfg.minting
  | .asyncMint _ c n _ _ => exec VtokenMinting.step s.minting (.mint cfg.reserveAccount c n none)
  | .operatorAsyncMint caller c n _ _ =>
    exec VtokenMinting.step s.minting (.mint caller c n none)
  | .forceIncreaseHyperbridgeReserve .. | .updateAsyncMintConfig .. => s.minting
  | .minting call => exec VtokenMinting.step s.minting call

def State.reserve (s : State cfg) (v : CurrencyId) : ℕ :=
  cfg.minting.currency.freeBalance s.minting.ledger v cfg.reserveAccount

/-- An attempt to issue was turned down. -/
def Refused (s : State cfg) (a : Move cfg) : Prop :=
  ∃ chain v additional, .asyncMintExecutionFailed chain v additional ∈ shown s a

/-- What the cap promises of a run. -/
structure Capped (s : State cfg) (as : List (Move cfg)) : Prop where
  quota : ∀ v chain window,
    total step (issuedIn v chain window) s as ≤ 1 + asyncMintRemainingBlocks
  ratio : Meets step (fun s a => ∀ i ∈ issued s a,
    i.amount * FixedU128.accuracy ≤ i.limit.inner * i.pool) s as
  growth : Meets step (fun s a => ∀ v,
    (exec step s a).minting.vtokenIssuance v =
        (s.minted a.2).vtokenIssuance v + issuedOf v s a ∧
      (exec step s a).reserve v = cfg.minting.currency.freeBalance (s.minted a.2).ledger v
        cfg.reserveAccount + issuedOf v s a) s as
  refusal : Meets step (fun s a => Refused s a →
    (exec step s a).asyncMintExecutions = s.asyncMintExecutions ∧
      (exec step s a).minting = s.minted a.2) s as

/-- What the count of a window becomes, where it lets an execution through. -/
def State.nextExecution (s : State cfg) (block : BlockNumber cfg) (key : CurrencyId × ℕ) :
    Option (ℕ × ℕ) :=
  let (last, remaining) := s.asyncMintExecutions key
  if min (last + s.asyncMintConfig.blockInterval) cfg.maxBlockNumber < block.val then
    some (block.val, asyncMintRemainingBlocks)
  else if remaining ≠ 0 then some (last, remaining - 1)
  else none

variable {s s' : State cfg} {block : BlockNumber cfg} {c v : CurrencyId} {chain n : ℕ}
  {a : Move cfg}

/-! The limiter. -/

/-- The share of the pool after rounding. -/
def State.WithinRounded (s : State cfg) (c : CurrencyId) (additional : ℕ) : Prop :=
  PerThing.mulNearest (s.minting.getTokenPool c) FixedU128.accuracy additional ≤
    s.asyncMintConfig.maxIssuanceRatio.inner

theorem ensureIssuanceRatio_cases (s : State cfg) (c : CurrencyId) (n : ℕ) :
    (s.ensureIssuanceRatio c n s.asyncMintConfig = .ok ⟨⟩ ∧ s.WithinRounded c n) ∨
      s.ensureIssuanceRatio c n s.asyncMintConfig = .error .panic ∨
      (s.ensureIssuanceRatio c n s.asyncMintConfig =
        .error (.pallet .asyncMintIssuanceRatioTooHigh) ∧
        s.minting.getTokenPool c ≠ 0 ∧ ¬s.WithinRounded c n) := by
  unfold State.ensureIssuanceRatio State.WithinRounded
  rcases FixedU128.fromRational_cases n (s.minting.getTokenPool c) with
    hnone | ⟨hpool, ratio, hratio, hinner⟩
  · rw [hnone]
    exact Or.inr (Or.inl rfl)
  · rw [hratio, ← hinner]
    by_cases hle : ratio.inner ≤ s.asyncMintConfig.maxIssuanceRatio.inner
    · exact Or.inl ⟨if_pos hle, hle⟩
    · exact Or.inr (Or.inr ⟨if_neg hle, hpool, hle⟩)

theorem checkAndUpdate_cases (s : State cfg) (block : BlockNumber cfg) (c v : CurrencyId)
    (chain n : ℕ) :
    let x := s.checkAndUpdateAsyncMintExecution block c v chain n s.asyncMintConfig
    (s.nextExecution block (v, chain) = none ∧ x = (s, some (.pallet .asyncMintTooFrequent))) ∨
      ∃ e, s.nextExecution block (v, chain) = some e ∧
        ((x = (s.insertExecution (v, chain) e, none) ∧ s.WithinRounded c n) ∨ x.2 = some .panic ∨
          (x = (s.insertExecution (v, chain) e,
            some (.pallet .asyncMintIssuanceRatioTooHigh)) ∧
            s.minting.getTokenPool c ≠ 0 ∧ ¬s.WithinRounded c n)) := by
  intro x
  have hdecided (e : ℕ × ℕ) (hx : x = Attempt.atomic (s.insertExecution (v, chain) e)
      (((s.insertExecution (v, chain) e).ensureIssuanceRatio c n s.asyncMintConfig).map
        fun _ => s.insertExecution (v, chain) e)) :
      (x = (s.insertExecution (v, chain) e, none) ∧ s.WithinRounded c n) ∨ x.2 = some .panic ∨
        (x = (s.insertExecution (v, chain) e, some (.pallet .asyncMintIssuanceRatioTooHigh)) ∧
          s.minting.getTokenPool c ≠ 0 ∧ ¬s.WithinRounded c n) := by
    rcases ensureIssuanceRatio_cases (s.insertExecution (v, chain) e) c n with
      ⟨hok, hle⟩ | hpanic | ⟨hhigh, hpool, hgt⟩
    · change State.ensureIssuanceRatio _ c n s.asyncMintConfig = _ at hok
      rw [hx, hok]
      exact Or.inl ⟨rfl, hle⟩
    · change State.ensureIssuanceRatio _ c n s.asyncMintConfig = _ at hpanic
      rw [hx, hpanic]
      exact Or.inr (Or.inl rfl)
    · change State.ensureIssuanceRatio _ c n s.asyncMintConfig = _ at hhigh
      rw [hx, hhigh]
      exact Or.inr (Or.inr ⟨rfl, hpool, hgt⟩)
  by_cases hnew : min ((s.asyncMintExecutions (v, chain)).1 + s.asyncMintConfig.blockInterval)
      cfg.maxBlockNumber < block.val
  · refine Or.inr ⟨(block.val, asyncMintRemainingBlocks), if_pos hnew, hdecided _ ?_⟩
    exact if_pos hnew
  · by_cases hleft : (s.asyncMintExecutions (v, chain)).2 ≠ 0
    · refine Or.inr ⟨((s.asyncMintExecutions (v, chain)).1,
        (s.asyncMintExecutions (v, chain)).2 - 1), ?_, hdecided _ ?_⟩
      · exact (if_neg hnew).trans (if_pos hleft)
      · exact (if_neg hnew).trans (if_pos hleft)
    · exact Or.inl ⟨(if_neg hnew).trans (if_neg hleft), (if_neg hnew).trans (if_neg hleft)⟩

/-- What issuing to the reserve account changes. -/
structure Added (v : CurrencyId) (n : ℕ) (m m' : VtokenMinting.State cfg.minting) : Prop where
  pools : m'.tokenPool = m.tokenPool
  mapping : m'.tokenToVToken = m.tokenToVToken
  issuance : ∀ d, m'.vtokenIssuance d = m.vtokenIssuance d + if d = v then n else 0
  deposit : cfg.minting.currency.deposit m.ledger v cfg.reserveAccount n = .ok m'.ledger

theorem Added.reserve {m m' : VtokenMinting.State cfg.minting} (h : Added v n m m')
    (d : CurrencyId) : cfg.minting.currency.freeBalance m'.ledger d cfg.reserveAccount =
      cfg.minting.currency.freeBalance m.ledger d cfg.reserveAccount + if d = v then n else 0 := by
  have hcredit := cfg.deposit_credits h.deposit d cfg.reserveAccount
  simpa only [and_true] using hcredit

theorem issueAdditional_ok (h : s.issueAdditional v n = .ok s') :
    ∃ minting, Added v n s.minting minting ∧ s' = { s with minting } := by
  simp only [State.issueAdditional, bind_eq_ok, mapErr_eq_ok, ensure_eq_ok, pure_eq_ok] at h
  obtain ⟨ledger, hledger, -, hlt, minting, hissue, rfl⟩ := h
  have hi : toI128 n = .ok (n : ℤ) := by
    simp only [toI128, bind_eq_ok, ensure_eq_ok, pure_eq_ok]
    exact ⟨⟨⟩, hlt, trivial⟩
  obtain ⟨-, rfl⟩ := issue_ok hi hissue
  refine ⟨_, ?_, rfl⟩
  refine ⟨rfl, rfl, ?_, hledger⟩
  intro d
  by_cases hd : d = v
  · subst hd
    simp [VtokenMinting.State.issued]
  · simp [VtokenMinting.State.issued, hd]

theorem coverShortfall_cases {caller : AccountId} {minted input : ℕ}
    (h : s.coverShortfall block caller c v chain minted input = .ok s') :
    (∃ es, s' = { s with
          events := s.events ++ (es ++ [.asyncMintExecuted caller chain v minted 0]) } ∧
        (input ≤ minted ∨ s.nextExecution block (v, chain) = none)) ∨
      ∃ e, s.nextExecution block (v, chain) = some e ∧ minted < input ∧
        ((s.WithinRounded c (input - minted) ∧ ∃ minting,
          Added v (input - minted) s.minting minting ∧ s' = { s.insertExecution (v, chain) e with
            minting
            events := s.events ++ [.asyncMintExecuted caller chain v minted (input - minted)] }) ∨
        (s.minting.getTokenPool c ≠ 0 ∧ ¬s.WithinRounded c (input - minted) ∧
          s' = { s.insertExecution (v, chain) e with
            events := s.events ++ [.asyncMintExecutionFailed chain v (input - minted),
              .asyncMintExecuted caller chain v minted 0] })) := by
  unfold State.coverShortfall at h
  split at h
  · rename_i hlt
    rcases checkAndUpdate_cases s block c v chain (input - minted) with
      ⟨hnone, hx⟩ | ⟨e, he, ⟨hx, hle⟩ | hx | ⟨hx, hpool, hgt⟩⟩
    · simp only [hx, pure_eq_ok] at h
      subst h
      refine Or.inl ⟨[.asyncMintExecutionFailed chain v (input - minted)], ?_, Or.inr hnone⟩
      simp [State.depositEvent]
    · simp only [hx, bind_eq_ok, pure_eq_ok] at h
      obtain ⟨s₁, hissue, rfl⟩ := h
      obtain ⟨minting, hadded, rfl⟩ := issueAdditional_ok hissue
      exact Or.inr ⟨e, he, hlt, Or.inl ⟨hle, minting, hadded, rfl⟩⟩
    · cases hcheck : s.checkAndUpdateAsyncMintExecution block c v chain (input - minted)
        s.asyncMintConfig with
      | mk s₁ e' =>
        simp only [hcheck] at h hx
        subst hx
        cases h
    · simp only [hx, pure_eq_ok] at h
      subst h
      refine Or.inr ⟨e, he, hlt, Or.inr ⟨hpool, hgt, ?_⟩⟩
      simp [State.depositEvent, State.insertExecution]
  · rename_i hge
    simp only [pure_eq_ok] at h
    subst h
    exact Or.inl ⟨[], rfl, Or.inl (Nat.not_lt.mp hge)⟩

/-! What a call does to the count of its window and to what is issued. -/

theorem Added.pool {m m' : VtokenMinting.State cfg.minting} (h : Added v n m m')
    (c : CurrencyId) : m'.getTokenPool c = m.getTokenPool c := by
  simp only [VtokenMinting.State.getTokenPool, VtokenMinting.State.getVtokenForToken, h.pools,
    h.mapping]

namespace Sample

def config : Config ℕ where
  minting := VtokenMinting.Sample.config
  reserveAccount := 7
  maxBlockNumber := 2 ^ 32 - 1
  deposit_credits := @Tokens.deposit_credits ℕ _ fun _ => 10

def start : State config :=
  genesis (VtokenMinting.genesis _ VtokenMinting.Sample.balances) ⟨⟨10 ^ 17⟩, 10⟩

def mapped : Move config := (10, .minting (.setVtokenMultimap vEth [⟨hpEth, true⟩]))

end Sample

end Slpx

end Bifrost
