import Bifrost.VtokenMinting.UnlockIds

/-!
# The two directions of the token map

`VTokenToTokens` lists the tokens of a vToken, `TokenToVToken` names the vToken of a token.
`set_vtoken_multimap` replaces one list and rewrites the entries of the tokens that leave or
join it; the other lists stay. The two maps agree after every run. That a list names a token
once is checked nowhere and holds exactly when the lists handed over do.
-/

namespace Bifrost.VtokenMinting

open Machine Result
set_option autoImplicit false

variable {AccountId : Type} {cfg : Config AccountId} {s s' : State cfg}

def State.tokensOf (s : State cfg) (v : CurrencyId) : List CurrencyId :=
  ((s.vTokenToTokens v).getD []).map VTokenTokenConfig.token

/-- Both directions name the same pairs. -/
def MapsAgree (s : State cfg) : Prop :=
  ∀ t v, s.tokenToVToken t = some v ↔ t ∈ s.tokensOf v

/-- The maps are in step, and every token is named at most once. -/
structure InStep (s : State cfg) : Prop where
  agree : MapsAgree s
  unique : ∀ t v w, t ∈ s.tokensOf v → t ∈ s.tokensOf w → v = w
  nodup : ∀ v, (s.tokensOf v).Nodup

theorem MapsAgree.unique (hs : MapsAgree s) {t v w : CurrencyId} (hv : t ∈ s.tokensOf v)
    (hw : t ∈ s.tokensOf w) : v = w :=
  Option.some_inj.mp (((hs t v).mpr hv).symm.trans ((hs t w).mpr hw))

theorem mapsAgree_empty (hv : s.vTokenToTokens = fun _ => none)
    (ht : s.tokenToVToken = fun _ => none) : MapsAgree s := by
  intro t v
  simp [State.tokensOf, hv, ht]

theorem setVtokenMultimap_ok {v : CurrencyId} {configs : List VTokenTokenConfig}
    (h : setVtokenMultimap s v configs = .ok s') :
    (∀ t ∈ configs.map VTokenTokenConfig.token, ∀ w, s.tokenToVToken t = some w → w = v) ∧
      s'.tokensOf = Function.update s.tokensOf v (configs.map VTokenTokenConfig.token) ∧
      ∀ t, s'.tokenToVToken t = if t ∈ configs.map VTokenTokenConfig.token then some v
        else if t ∈ s.tokensOf v then none else s.tokenToVToken t := by
  simp only [setVtokenMultimap, bind_eq_ok, ensure_eq_ok, pure_eq_ok, List.all_eq_true,
    decide_eq_true_eq] at h
  obtain ⟨-, -, -, hfree, rfl⟩ := h
  refine ⟨?_, ?_, ?_⟩
  · intro t ht w hw
    obtain ⟨config, hconfig, rfl⟩ := List.mem_map.mp ht
    simpa [hw] using hfree config hconfig
  · funext w
    by_cases hw : w = v
    · subst w
      rw [Function.update_self]
      split
      · rename_i hnil
        simp [State.tokensOf, State.depositEvent, hnil]
      · simp [State.tokensOf, State.depositEvent]
    · rw [Function.update_of_ne hw]
      split <;> simp [State.tokensOf, State.depositEvent, hw]
  · intro t
    split
    · rename_i hnil
      subst hnil
      simp only [State.depositEvent, setEntries_apply, List.map_nil, List.not_mem_nil, if_false]
      rfl
    · simp only [State.depositEvent, setEntries_apply, List.mem_filter, decide_not,
        Bool.not_eq_true', decide_eq_false_iff_not]
      by_cases ht : t ∈ configs.map VTokenTokenConfig.token
      · rw [if_pos ht, if_pos ht]
      · simp only [ht, not_false_eq_true, and_true]
        rfl

theorem setVtokenMultimap_agree {v : CurrencyId} {configs : List VTokenTokenConfig}
    (hs : MapsAgree s) (h : setVtokenMultimap s v configs = .ok s') : MapsAgree s' := by
  obtain ⟨hfree, htokens, hentries⟩ := setVtokenMultimap_ok h
  intro t w
  rw [hentries, htokens]
  by_cases hw : w = v
  · subst w
    rw [Function.update_self]
    by_cases ht : t ∈ configs.map VTokenTokenConfig.token
    · rw [if_pos ht]
      exact iff_of_true rfl ht
    · -- a token that maps to `v` was in its old list and has left it
      rw [if_neg ht]
      refine iff_of_false ?_ ht
      by_cases hold : t ∈ s.tokensOf v
      · rw [if_pos hold]
        exact nofun
      · rw [if_neg hold]
        exact fun hmaps => hold ((hs t v).mp hmaps)
  · rw [Function.update_of_ne hw]
    by_cases ht : t ∈ configs.map VTokenTokenConfig.token
    · rw [if_pos ht]
      refine ⟨fun heq => absurd (Option.some_inj.mp heq).symm hw, fun hmem => ?_⟩
      exact absurd (hfree t ht w ((hs t w).mpr hmem)) hw
    · rw [if_neg ht]
      by_cases hold : t ∈ s.tokensOf v
      · rw [if_pos hold]
        exact ⟨nofun, fun hmem => absurd (hs.unique hmem hold) hw⟩
      · rw [if_neg hold]
        exact hs t w

section Runs

variable [DecidableEq AccountId]

theorem step_vTokenToTokens {a : Call cfg} (ha : a.maps = false) (h : step s a = .ok s') :
    s'.vTokenToTokens = s.vTokenToTokens := by
  cases a with
  | mint who d n channel =>
    simp only [step, bind_eq_ok, pure_eq_ok] at h
    obtain ⟨⟨v, m, s₁⟩, h₁, rfl⟩ := h
    obtain ⟨n, fee, L, es, -, -, -, -, -, rfl⟩ := doMint_ok h₁
    rfl
  | redeem who oc v n redeemType =>
    obtain ⟨d, target, k, t, ledgers, L, es, -, -, -, -, -, -, -, -, -, rfl⟩ := doRedeem_ok h
    rfl
  | rebond who d n =>
    obtain ⟨g, ledgers, target, k, m, fee, rebonded, L, es, -, -, -, -, -, -, -, rfl⟩ := rebond_ok h
    rfl
  | rebondByUnlockId who d id =>
    obtain ⟨r, b, ledgers, target, k, m, fee, rebonded, L, es, -, -, -, -, -, -, -, rfl⟩ :=
      rebondByUnlockId_ok h
    rfl
  | onIdle order =>
    refine onIdle_invariant (I := fun t => t.vTokenToTokens = s.vTokenToTokens) ?_ rfl h
    intro t d t' ht hstep
    rw [← ht]
    cases hstep <;> rfl
  | setUnlockingTotal d n =>
    simp only [step, updateTotal, bind_eq_ok, mapErr_eq_ok, pure_eq_ok] at h
    obtain ⟨_, rfl, rfl⟩ := h
    rfl
  | addSupportRebondToken d =>
    simp only [step, bind_eq_ok, pure_eq_ok] at h
    obtain ⟨-, -, rfl⟩ := h
    rfl
  | removeSupportRebondToken d =>
    simp only [step, bind_eq_ok, pure_eq_ok] at h
    obtain ⟨-, -, rfl⟩ := h
    rfl
  | setVtokenMultimap v configs => contradiction
  | setVCurrencyIssuance v adjustment =>
    obtain ⟨-, issuance, -, rfl⟩ := setVCurrencyIssuanceInner_ok h
    rfl
  | increaseTokenPool d n =>
    obtain ⟨target, amount, -, -, rfl⟩ := updateTokenPool_ok h
    rfl
  | decreaseTokenPool d n =>
    obtain ⟨target, amount, -, -, rfl⟩ := updateTokenPool_ok h
    rfl
  | setMinTimeUnit | setUnlockDuration | setMinimumMint | setMinimumRedeem | setFees
  | setHookIterationLimit | setOngoingTimeUnit | world =>
    simp only [step, pure_eq_ok] at h
    subst s'
    rfl

theorem mapsAgree_step {a : Call cfg} (hs : MapsAgree s) (h : step s a = .ok s') :
    MapsAgree s' := by
  cases hmaps : a.maps with
  | true =>
    cases a with
    | setVtokenMultimap v configs => exact setVtokenMultimap_agree hs h
    | _ => contradiction
  | false =>
    intro t v
    rw [(step_frame h).tokenToVToken hmaps, State.tokensOf, step_vTokenToTokens hmaps h]
    exact hs t v

/-- The list handed over names every token once. -/
def NamesOnce (_ : State cfg) : Call cfg → Prop
  | .setVtokenMultimap _ configs => (configs.map VTokenTokenConfig.token).Nodup
  | _ => True

theorem nodup_step_iff {a : Call cfg} (hs : ∀ v, (s.tokensOf v).Nodup) (h : step s a = .ok s') :
    (∀ v, (s'.tokensOf v).Nodup) ↔ NamesOnce s a := by
  cases hmaps : a.maps with
  | true =>
    cases a with
    | setVtokenMultimap v configs =>
      obtain ⟨-, htokens, -⟩ := setVtokenMultimap_ok h
      rw [htokens]
      constructor
      · intro hall
        simpa [NamesOnce] using hall v
      · intro honce w
        by_cases hw : w = v
        · subst w
          rw [Function.update_self]
          exact honce
        · rw [Function.update_of_ne hw]
          exact hs w
    | _ => contradiction
  | false =>
    have honce : NamesOnce s a := by
      cases a with
      | setVtokenMultimap v configs => contradiction
      | _ => trivial
    refine iff_of_true ?_ honce
    intro v
    rw [State.tokensOf, step_vTokenToTokens hmaps h]
    exact hs v

theorem nodup_exec_iff {a : Call cfg} (hs : ∀ v, (s.tokensOf v).Nodup) :
    (∀ v, ((exec step s a).tokensOf v).Nodup) ↔ ∀ s', step s a = .ok s' → NamesOnce s a := by
  cases hstep : step s a with
  | ok s' =>
    rw [exec_ok hstep, nodup_step_iff hs hstep]
    exact ⟨fun honce _ _ => honce, fun honce => honce s' rfl⟩
  | error e =>
    have hsame : exec step s a = s := by simp [exec, hstep]
    rw [hsame]
    exact iff_of_true hs (by simp)

theorem nodup_run_iff (as : List (Call cfg)) (hs : ∀ v, (s.tokensOf v).Nodup) :
    (∀ n v, ((run step s (as.take n)).tokensOf v).Nodup) ↔ Meets step NamesOnce s as := by
  induction as generalizing s with
  | nil => simpa [Meets] using hs
  | cons a as ih =>
    constructor
    · intro hall
      have hnext : ∀ v, ((exec step s a).tokensOf v).Nodup := by simpa using hall 1
      refine ⟨(nodup_exec_iff hs).mp hnext, (ih hnext).mp fun n => ?_⟩
      simpa using hall (n + 1)
    · intro hmeets n
      have hnext := (nodup_exec_iff hs).mpr hmeets.1
      cases n with
      | zero => simpa using hs
      | succ n => simpa using (ih hnext).mpr hmeets.2 n

/-- From empty maps, a call that fails changes nothing, and the maps are in step in every state
of a run exactly when every successful `set_vtoken_multimap` of it names its tokens once. -/
theorem multimap_in_step (s : State cfg) (hlists : s.vTokenToTokens = fun _ => none)
    (hentries : s.tokenToVToken = fun _ => none) (as : List (Call cfg)) :
    (∀ t a e, step t a = .error e → exec step (t : State cfg) a = t) ∧
      (∀ n, MapsAgree (run step s (as.take n))) ∧
      ((∀ n, InStep (run step s (as.take n))) ↔ Meets step NamesOnce s as) := by
  have hagree : ∀ n, MapsAgree (run step s (as.take n)) := by
    intro n
    exact run_invariant (I := MapsAgree) (fun _ _ _ ht _ h => mapsAgree_step ht h) (as.take n)
      (mapsAgree_empty hlists hentries) (meets_true _ s)
  have hnodup : ∀ v, (s.tokensOf v).Nodup := by
    intro v
    simp [State.tokensOf, hlists]
  refine ⟨?_, hagree, ?_⟩
  · intro t a e he
    simp [exec, he]
  · rw [← nodup_run_iff as hnodup]
    constructor
    · intro hall n
      exact (hall n).nodup
    · intro hall n
      exact ⟨hagree n, fun _ _ _ => (hagree n).unique, hall n⟩

end Runs

/-- vETH takes HP_ETH and ETH, then hands HP_ETH over to vToken2 50. -/
def Sample.handedOver : List (Call config) :=
  [.setVtokenMultimap vEth [⟨hpEth, true⟩, ⟨eth, false⟩], .setVtokenMultimap vEth [⟨eth, true⟩],
    .setVtokenMultimap (.vToken2 50) [⟨hpEth, true⟩]]

theorem multimap_in_step_sample :
    InStep (run step (genesis Sample.config Sample.balances) Sample.handedOver) := by
  have h := multimap_in_step (genesis Sample.config Sample.balances) rfl rfl Sample.handedOver
  refine h.2.2.mpr ⟨fun _ _ => ?_, fun _ _ => ?_, fun _ _ => ?_, trivial⟩ 3
  · change ([hpEth, eth] : List CurrencyId).Nodup
    decide
  · exact List.nodup_singleton eth
  · exact List.nodup_singleton hpEth

/-- A list may name HP_ETH twice, once with redemptions and once without. -/
theorem multimap_names_twice :
    let s := run step (genesis Sample.config Sample.balances)
      [.setVtokenMultimap vEth [⟨hpEth, true⟩, ⟨hpEth, false⟩]]
    s.vTokenToTokens vEth = some [⟨hpEth, true⟩, ⟨hpEth, false⟩] ∧ ¬ InStep s := by
  refine ⟨by decide, fun hs => ?_⟩
  have hlist : (run step (genesis Sample.config Sample.balances)
    [.setVtokenMultimap vEth [⟨hpEth, true⟩, ⟨hpEth, false⟩]]).tokensOf vEth =
      [hpEth, hpEth] := by decide
  have hnodup := hs.nodup vEth
  rw [hlist] at hnodup
  exact absurd hnodup (by decide)

end Bifrost.VtokenMinting
