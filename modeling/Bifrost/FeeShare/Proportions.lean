import Bifrost.FeeShare.Pallet
import Bifrost.Lib.Proportion

/-!
# What a distribution shares out

The proportions are checked as they are listed and stored by account: where an account is listed
again, its last proportion stays, while the check has counted both and stops counting at one. The
stored proportions are one exactly if the lasting ones of the list are. Then the shares of every
token are in its balance and leave less than a unit each.
-/

namespace Bifrost.FeeShare

open Result Machine
set_option autoImplicit false

variable {AccountId : Type} {cfg : Config AccountId} {s s' : State cfg}

/-! What the calls change of the distributions. -/

/-- The distributions and their proportions are as they were. -/
structure Kept (s s' : State cfg) : Prop where
  distributionInfos : s'.distributionInfos = s.distributionInfos
  tokensProportions : s'.tokensProportions = s.tokensProportions
  distributionNextId : s'.distributionNextId = s.distributionNextId

theorem Kept.refl (s : State cfg) : Kept s s := ⟨rfl, rfl, rfl⟩

theorem Kept.trans {s'' : State cfg} (h : Kept s s') (h' : Kept s' s'') : Kept s s'' :=
  ⟨h'.1.trans h.1, h'.2.trans h.2, h'.3.trans h.3⟩

theorem executeDistributeInner_kept (s : State cfg) (id : ℕ) (infos : Info AccountId) :
    Kept s (s.executeDistributeInner id infos).1 := by
  unfold State.executeDistributeInner
  split
  · exact Kept.refl s
  · split
    · unfold State.accumulate
      split
      · exact Kept.refl s
      · exact ⟨rfl, rfl, rfl⟩
    · exact ⟨rfl, rfl, rfl⟩

theorem distributeAuto_kept (s : State cfg) (e : ℕ × Info AccountId) :
    Kept s (s.distributeAuto e) := by
  unfold State.distributeAuto
  split
  · exact executeDistributeInner_kept s e.1 e.2
  · exact Kept.refl s

theorem foldl_distributeAuto_kept (l : List (ℕ × Info AccountId)) (s : State cfg) :
    Kept s (l.foldl State.distributeAuto s) := by
  induction l generalizing s with
  | nil => exact Kept.refl s
  | cons e l ih => exact (distributeAuto_kept s e).trans (ih _)

theorem onInitialize_kept (s : State cfg) : Kept s s.onInitialize := by
  have hclear : Kept s s.clearCumulative := ⟨rfl, rfl, rfl⟩
  simp only [State.onInitialize]
  split
  · have hfold := foldl_distributeAuto_kept
      (cfg.distributions s.clearCumulative.distributionInfos) s.clearCumulative
    exact hclear.trans ⟨hfold.1, hfold.2, hfold.3⟩
  · exact hclear

theorem executeDistribute_kept {id : ℕ} (h : s.executeDistribute id = .ok s') : Kept s s' := by
  simp only [State.executeDistribute, bind_eq_ok, Attempt.commit_eq_ok] at h
  obtain ⟨info, -, h⟩ := h
  have hkept := executeDistributeInner_kept s id info
  rw [h] at hkept
  exact hkept

variable [DecidableEq AccountId]

/-- What a call makes of the distributions. -/
inductive Registers (s s' : State cfg) : Call cfg → Prop where
  | created (tokenType : List CurrencyId) (l : List (AccountId × Perbill)) (ifAuto : Bool) :
      s'.distributionInfos = s.distributionInfos.write s.distributionNextId
        (some ⟨cfg.feeShareAccount s.distributionNextId, tokenType, ifAuto⟩) →
      s'.tokensProportions = Function.update s.tokensProportions s.distributionNextId
        ((s.tokensProportions s.distributionNextId).writeAll l) →
      s'.distributionNextId = s.distributionNextId + 1 →
      Registers s s' (.createDistribution tokenType l ifAuto)
  | edited (id : ℕ) (tokenType : Option (List CurrencyId))
      (l : Option (List (AccountId × Perbill))) (ifAuto : Option Bool) (info info' : Info AccountId) :
      s.distributionInfos.get id = some info →
      info'.feeShareAccountId = info.feeShareAccountId →
      s'.distributionInfos = s.distributionInfos.write id (some info') →
      s'.tokensProportions = l.elim s.tokensProportions
        (fun l => Function.update s.tokensProportions id (Table.writeAll ∅ l)) →
      s'.distributionNextId = s.distributionNextId →
      Registers s s' (.editDistribution id tokenType l ifAuto)
  | deleted (id : ℕ) :
      s'.distributionInfos = s.distributionInfos.write id none →
      s'.tokensProportions = s.tokensProportions →
      s'.distributionNextId = s.distributionNextId →
      Registers s s' (.deleteDistribution id)
  | setEraLength (eraLength : ℕ) : Kept s s' → Registers s s' (.setEraLength eraLength)
  | executeDistribute (id : ℕ) : Kept s s' → Registers s s' (.executeDistribute id)
  | setUsdConfig (id targetValue interval : ℕ) (target : AccountId) : Kept s s' →
      Registers s s' (.setUsdConfig id targetValue interval target)
  | onInitialize : Kept s s' → Registers s s' .onInitialize
  | outside (ledger : cfg.payments.Ledger) (price : CurrencyId → Option FixedU128) (now : ℕ) :
      Kept s s' → Registers s s' (.outside ledger price now)

theorem step_registers {call : Origin × Call cfg} (h : step s call = .ok s') :
    Registers s s' call.2 := by
  obtain ⟨origin, call⟩ := call
  cases call with
  | createDistribution tokenType l ifAuto =>
    simp only [step, ensureControl, State.createDistribution, bind_eq_ok, ensure_eq_ok,
      exists_const, okOr_eq_ok, U32.checkedAdd_eq_some, pure_eq_ok] at h
    obtain ⟨-, -, next, ⟨hnext, -⟩, rfl⟩ := h
    exact .created tokenType l ifAuto rfl rfl hnext.symm
  | editDistribution id tokenType l ifAuto =>
    simp only [step, ensureControl, State.editDistribution, bind_eq_ok, ensure_eq_ok,
      exists_const, okOr_eq_ok, pure_eq_ok] at h
    obtain ⟨-, info, hinfo, t, ht, rfl⟩ := h
    let info' := { info with
      tokenType := tokenType.getD info.tokenType
      ifAuto := ifAuto.getD info.ifAuto }
    cases l with
    | none =>
      simp only [State.editProportions, pure_eq_ok] at ht
      subst t
      exact .edited id tokenType none ifAuto info info' hinfo rfl rfl rfl rfl
    | some l =>
      simp only [State.editProportions, bind_eq_ok, ensure_eq_ok, exists_const,
        pure_eq_ok] at ht
      obtain ⟨-, rfl⟩ := ht
      exact .edited id tokenType (some l) ifAuto info info' hinfo rfl rfl rfl rfl
  | setEraLength eraLength =>
    simp only [step, ensureControl, State.setEraLength, bind_eq_ok, ensure_eq_ok, exists_const,
      pure_eq_ok] at h
    obtain ⟨-, next, -, rfl⟩ := h
    exact .setEraLength eraLength ⟨rfl, rfl, rfl⟩
  | executeDistribute id =>
    simp only [step, ensureControl, bind_eq_ok, ensure_eq_ok, exists_const] at h
    exact .executeDistribute id (executeDistribute_kept h.2)
  | deleteDistribution id =>
    simp only [step, ensureControl, State.deleteDistribution, bind_eq_ok, ensure_eq_ok,
      exists_const, pure_eq_ok] at h
    obtain ⟨-, t, ht, rfl⟩ := h
    have hkept := executeDistribute_kept ht
    refine .deleted id ?_ hkept.2 hkept.3
    rw [hkept.1]
  | setUsdConfig id targetValue interval target =>
    simp only [step, ensureControl, State.setUsdConfig, bind_eq_ok, ensure_eq_ok, exists_const,
      pure_eq_ok] at h
    obtain ⟨-, -, -, -, rfl⟩ := h
    exact .setUsdConfig id targetValue interval target ⟨rfl, rfl, rfl⟩
  | onInitialize =>
    simp only [step, pure_eq_ok] at h
    subst s'
    exact .onInitialize (onInitialize_kept s)
  | outside ledger price now =>
    simp only [step, pure_eq_ok] at h
    subst s'
    exact .outside ledger price now ⟨rfl, rfl, rfl⟩

/-! The sum of the stored proportions. -/

omit [DecidableEq AccountId] in
def parts (t : Table AccountId Perbill) : ℕ := Table.sum (fun _ p => p.parts) t

/-- The proportions that stay of a list are one. -/
def Apportions (l : List (AccountId × Perbill)) : Prop :=
  ((Table.lasting l).map fun e => e.2.parts).sum = Perbill.accuracy

instance (l : List (AccountId × Perbill)) : Decidable (Apportions l) :=
  inferInstanceAs (Decidable (_ = _))

theorem parts_writeAll_empty (l : List (AccountId × Perbill)) :
    parts (Table.writeAll ∅ l) = ((Table.lasting l).map fun e => e.2.parts).sum := by
  rw [parts, Table.sum_writeAll, Table.sum_empty, Nat.zero_add]

/-- The list a call brings, if it brings one, apportions the whole. -/
def Divides (call : Origin × Call cfg) : Prop :=
  match call.2 with
  | .createDistribution _ l _ | .editDistribution _ _ (some l) _ => Apportions l
  | _ => True

section

omit [DecidableEq AccountId]

/-- Ids not given out yet have no proportions. -/
def Fresh (s : State cfg) : Prop :=
  ∀ id, s.distributionNextId ≤ id →
    s.distributionInfos.get id = none ∧ s.tokensProportions id = ∅

/-- The proportions of every distribution are one. -/
def Whole (s : State cfg) : Prop :=
  ∀ id info, s.distributionInfos.get id = some info →
    parts (s.tokensProportions id) = Perbill.accuracy

theorem Fresh.kept (hs : Fresh s) (h : Kept s s') : Fresh s' := by
  intro id hid
  rw [h.1, h.2]
  exact hs id (h.3 ▸ hid)

theorem Whole.kept (hs : Whole s) (h : Kept s s') : Whole s' := by
  intro id info hinfo
  rw [h.2]
  exact hs id info (h.1 ▸ hinfo)

end

theorem step_fresh {call : Origin × Call cfg} (hs : Fresh s) (h : step s call = .ok s') :
    Fresh s' := by
  obtain ⟨origin, call⟩ := call
  cases step_registers h with
  | created tokenType l ifAuto hinfos hproportions hnext =>
    intro id hid
    have hne : id ≠ s.distributionNextId := by omega
    rw [hinfos, hproportions, Table.get_write_ne _ _ hne, Function.update_of_ne hne]
    exact hs id (by omega)
  | edited id tokenType l ifAuto info info' hinfo haccount hinfos hproportions hnext =>
    intro j hj
    have hfree := hs j (hnext ▸ hj)
    have hne : j ≠ id := by
      rintro rfl
      rw [hinfo] at hfree
      exact absurd hfree.1 (by simp)
    rw [hinfos, hproportions, Table.get_write_ne _ _ hne]
    refine ⟨hfree.1, ?_⟩
    cases l with
    | none => exact hfree.2
    | some l => exact (Function.update_of_ne hne _ _).trans hfree.2
  | deleted id hinfos hproportions hnext =>
    intro j hj
    have hfree := hs j (hnext ▸ hj)
    rw [hinfos, hproportions, Table.get_write]
    refine ⟨?_, hfree.2⟩
    split
    · rfl
    · exact hfree.1
  | setEraLength _ hkept | executeDistribute _ hkept | setUsdConfig _ _ _ _ hkept
  | onInitialize hkept | outside _ _ _ hkept => exact hs.kept hkept

/-- New proportions of one distribution are one exactly if what stays of their list is. -/
theorem whole_update_iff (hs : Whole s) {id : ℕ} {info' : Info AccountId}
    {l : List (AccountId × Perbill)}
    (hinfos : s'.distributionInfos = s.distributionInfos.write id (some info'))
    (hproportions : s'.tokensProportions =
      Function.update s.tokensProportions id (Table.writeAll ∅ l)) : Whole s' ↔ Apportions l := by
  constructor
  · intro hwhole
    have hid := hwhole id info' (by rw [hinfos, Table.get_write_self])
    rw [hproportions, Function.update_self, parts_writeAll_empty] at hid
    exact hid
  · intro hl j info hinfo
    rw [hinfos, Table.get_write] at hinfo
    rw [hproportions]
    by_cases hj : j = id
    · subst j
      rw [Function.update_self, parts_writeAll_empty]
      exact hl
    · rw [if_neg hj] at hinfo
      rw [Function.update_of_ne hj]
      exact hs j info hinfo

theorem step_whole_iff {call : Origin × Call cfg} (hfresh : Fresh s) (hs : Whole s)
    (h : step s call = .ok s') : Whole s' ↔ Divides call := by
  obtain ⟨origin, call⟩ := call
  cases step_registers h with
  | created tokenType l ifAuto hinfos hproportions hnext =>
    rw [(hfresh _ (Nat.le_refl _)).2] at hproportions
    exact whole_update_iff hs hinfos hproportions
  | edited id tokenType l ifAuto info info' hinfo haccount hinfos hproportions hnext =>
    cases l with
    | none =>
      have hwhole : Whole s' := by
        intro j info'' hinfo''
        rw [hinfos, Table.get_write] at hinfo''
        rw [hproportions]
        by_cases hj : j = id
        · subst j
          exact hs id info hinfo
        · rw [if_neg hj] at hinfo''
          exact hs j info'' hinfo''
      exact iff_of_true hwhole trivial
    | some l => exact whole_update_iff hs hinfos hproportions
  | deleted id hinfos hproportions hnext =>
    have hwhole : Whole s' := by
      intro j info hinfo
      rw [hinfos, Table.get_write] at hinfo
      rw [hproportions]
      split at hinfo
      · contradiction
      · exact hs j info hinfo
    exact iff_of_true hwhole trivial
  | setEraLength _ hkept | executeDistribute _ hkept | setUsdConfig _ _ _ _ hkept
  | onInitialize hkept | outside _ _ _ hkept => exact iff_of_true (hs.kept hkept) trivial

end Bifrost.FeeShare
