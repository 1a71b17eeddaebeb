import Bifrost.BuyBack.Pallet

/-!
# The schedules of buy-backs

A schedule moves only in the block its test is for, and only if the price of the block before is
there. It is on time as long as every such block finds its price: then a cycle of blocks has exactly
one buy-back. A block that finds none is missed for good, and a cycle of one block has no room for
both steps.
-/

namespace Bifrost.BuyBack

open Result Machine
set_option autoImplicit false

variable {AccountId : Type} {cfg : Config AccountId} {s s' : State cfg} {c d : CurrencyId}
  {info : Info} {n : ℕ}

/-! What the hook does to one currency. -/

def Event.isBuyback (c : CurrencyId) : Event → Bool
  | buyBackFailed d _ | buyBackSuccess d _ => d = c
  | _ => false

def Event.isAddition (c : CurrencyId) : Event → Bool
  | addLiquidityFailed d _ | addLiquiditySuccess d _ => d = c
  | _ => false

def State.buybacks (s : State cfg) (c : CurrencyId) : ℕ := s.events.countP (Event.isBuyback c)

def State.additions (s : State cfg) (c : CurrencyId) : ℕ := s.events.countP (Event.isAddition c)

theorem buybacks_depositEvent (s : State cfg) (e : Event) (c : CurrencyId) :
    (s.depositEvent e).buybacks c = s.buybacks c + if e.isBuyback c then 1 else 0 :=
  List.countP_cons

theorem additions_depositEvent (s : State cfg) (e : Event) (c : CurrencyId) :
    (s.depositEvent e).additions c = s.additions c + if e.isAddition c then 1 else 0 :=
  List.countP_cons

theorem tryAddLiquidity_eq (s : State cfg) (n : ℕ) (c : CurrencyId) (info : Info)
    (swapOutMin : ℕ) : ∃ e world, (∀ d, Event.isBuyback d e = false) ∧
      (∀ d, Event.isAddition d e = decide (c = d)) ∧
      s.tryAddLiquidity n c info swapOutMin = State.depositEvent { s with world } e := by
  unfold State.tryAddLiquidity
  split
  · exact ⟨_, s.world, fun _ => rfl, fun _ => rfl, rfl⟩
  · exact ⟨_, _, fun _ => rfl, fun _ => rfl, rfl⟩

theorem tryBuyBack_eq (s : State cfg) (n : ℕ) (c : CurrencyId) (info : Info)
    (swapOutMin : ℕ) : ∃ e world, (∀ d, Event.isBuyback d e = decide (c = d)) ∧
      (∀ d, Event.isAddition d e = false) ∧
      s.tryBuyBack n c info swapOutMin = State.depositEvent { s with world } e := by
  unfold State.tryBuyBack
  split
  · exact ⟨_, s.world, fun _ => rfl, fun _ => rfl, rfl⟩
  · exact ⟨_, _, fun _ => rfl, fun _ => rfl, rfl⟩

structure SameAt (c : CurrencyId) (s s' : State cfg) : Prop where
  infos : s'.infos.get c = s.infos.get c
  swapOutMin : s'.swapOutMin.get c = s.swapOutMin.get c
  addLiquiditySwapOutMin : s'.addLiquiditySwapOutMin.get c = s.addLiquiditySwapOutMin.get c
  buybacks : s'.buybacks c = s.buybacks c
  additions : s'.additions c = s.additions c

theorem SameAt.refl (c : CurrencyId) (s : State cfg) : SameAt c s s := ⟨rfl, rfl, rfl, rfl, rfl⟩

theorem SameAt.depositEvent (s : State cfg) {e : Event} (hb : e.isBuyback c = false)
    (ha : e.isAddition c = false) : SameAt c s (s.depositEvent e) :=
  ⟨rfl, rfl, rfl, by simp [buybacks_depositEvent, hb], by simp [additions_depositEvent, ha]⟩

theorem SameAt.trans {s'' : State cfg} (h : SameAt c s s') (h' : SameAt c s' s'') :
    SameAt c s s'' :=
  ⟨h'.1.trans h.1, h'.2.trans h.2, h'.3.trans h.3, h'.4.trans h.4, h'.5.trans h.5⟩

variable (cfg) in
def Info.target (info : Info) (c : CurrencyId) : ℕ :=
  getTargetBlock cfg info.lastBuyback c info.buybackDuration

/-- The work is due and its price is there. -/
def State.addsLiquidity (s : State cfg) (n : ℕ) (c : CurrencyId) (info : Info) : Bool :=
  U32.wrappingAdd info.lastAddLiquidity info.addLiquidityDuration = n ∧
    (s.addLiquiditySwapOutMin.get c).isSome

def State.buysBack (s : State cfg) (n : ℕ) (c : CurrencyId) (info : Info) : Bool :=
  info.lastBuybackCycle < n ∧ info.target cfg c + 1 = n - info.lastBuybackCycle ∧
    (s.swapOutMin.get c).isSome

variable (cfg) in
theorem target_pos (info : Info) (c : CurrencyId) : 0 < info.target cfg c := by
  unfold Info.target getTargetBlock
  simp only
  split
  · exact Nat.one_pos
  · exact Nat.succ_pos _

variable (cfg) in
theorem target_lt (info : Info) (c : CurrencyId) (h : 2 ≤ info.buybackDuration) :
    info.target cfg c < info.buybackDuration := by
  unfold Info.target getTargetBlock
  simp only
  split
  · omega
  · have hmod := Nat.mod_lt
      (U32.saturatingAdd info.lastBuyback (currencySeed cfg c)) (y := info.buybackDuration - 1)
      (by omega)
    omega

variable (cfg) in
theorem target_of_one (info : Info) (c : CurrencyId) (h : info.buybackDuration = 1) :
    info.target cfg c = 1 := by
  simp [Info.target, getTargetBlock, h]

/-- What the first `match` leaves. -/
structure LiquidityServiced (n : ℕ) (c : CurrencyId) (info : Info) (s : State cfg)
    (r : State cfg × Info) : Prop where
  others : ∀ d, d ≠ c → SameAt d s r.1
  info_eq : r.2 = if s.addsLiquidity n c info then info.liquidityAdded else info
  infos : r.1.infos.get c = some r.2
  swapOutMin : r.1.swapOutMin = s.swapOutMin
  buybacks : r.1.buybacks c = s.buybacks c
  additions : r.1.additions c = s.additions c + if s.addsLiquidity n c info then 1 else 0
  now : r.1.now = s.now

theorem LiquidityServiced.idle (hinfo : s.infos.get c = some info)
    (hnot : s.addsLiquidity n c info = false) (hsame : ∀ d, d ≠ c → SameAt d s s')
    (hinfos : s'.infos = s.infos) (hquote : s'.swapOutMin = s.swapOutMin)
    (hbuybacks : s'.buybacks c = s.buybacks c) (hadditions : s'.additions c = s.additions c)
    (hnow : s'.now = s.now) : LiquidityServiced n c info s (s', info) where
  others := hsame
  info_eq := by simp [hnot]
  infos := by rw [hinfos, hinfo]
  swapOutMin := hquote
  buybacks := hbuybacks
  additions := by simp [hnot, hadditions]
  now := hnow

theorem serviceLiquidity_serviced (hn : 0 < n) (hinfo : s.infos.get c = some info) :
    LiquidityServiced n c info s (s.serviceLiquidity n c info) := by
  unfold State.serviceLiquidity
  simp only
  split
  · rename_i hquote
    have hnot : s.addsLiquidity n c info = false := by
      simp only [State.addsLiquidity, decide_eq_false_iff_not, not_and]
      omega
    split
    · exact .idle hinfo hnot (fun d _ => .depositEvent s rfl rfl) rfl rfl
        (SameAt.depositEvent s rfl rfl).buybacks (SameAt.depositEvent s rfl rfl).additions rfl
    · rename_i s' hs'
      simp only [State.setAddLiquiditySwapOutMin, bind_eq_ok, pure_eq_ok] at hs'
      obtain ⟨amount, -, rfl⟩ := hs'
      refine .idle hinfo hnot (fun d hd => ?_) rfl rfl
        (SameAt.depositEvent s rfl rfl).buybacks (SameAt.depositEvent s rfl rfl).additions rfl
      have hwrite : SameAt d s { s with
          addLiquiditySwapOutMin := s.addLiquiditySwapOutMin.write c (some amount) } :=
        ⟨rfl, rfl, Table.get_write_ne _ _ hd, rfl, rfl⟩
      exact hwrite.trans (.depositEvent _ rfl rfl)
  · split
    · rename_i hdue
      split
      · rename_i swapOutMin hget
        have hdo : s.addsLiquidity n c info = true := by
          simp [State.addsLiquidity, hdue, hget]
        obtain ⟨e, world, hb, ha, hwork⟩ := tryAddLiquidity_eq s n c info swapOutMin
        have hbuybacks (d : CurrencyId) : (s.depositEvent e).buybacks d = s.buybacks d := by
          simp [buybacks_depositEvent, hb]
        simp only [hwork]
        refine ⟨fun d hd => ?_, by simp [hdo], Table.get_write_self _ _ _, rfl, hbuybacks c, ?_, rfl⟩
        · refine ⟨Table.get_write_ne _ _ hd, rfl, Table.get_write_ne _ _ hd, hbuybacks d, ?_⟩
          have hadditions := additions_depositEvent s e d
          rw [ha, decide_eq_false hd.symm] at hadditions
          exact hadditions
        · have hadditions := additions_depositEvent s e c
          rw [ha, decide_eq_true rfl] at hadditions
          rw [hdo]
          exact hadditions
      · rename_i hget
        have hnot : s.addsLiquidity n c info = false := by
          simp [State.addsLiquidity, hget]
        exact .idle hinfo hnot (fun d _ => .refl d s) rfl rfl rfl rfl rfl
    · rename_i hdue
      have hnot : s.addsLiquidity n c info = false := by
        simp [State.addsLiquidity, hdue]
      exact .idle hinfo hnot (fun d _ => .refl d s) rfl rfl rfl rfl rfl

/-- What the second `match` leaves. -/
structure BuybackServiced (n : ℕ) (c : CurrencyId) (info : Info) (s s' : State cfg) : Prop where
  others : ∀ d, d ≠ c → SameAt d s s'
  infos : s'.infos.get c = some (if s.buysBack n c info then info.boughtBack n else info)
  buybacks : s'.buybacks c = s.buybacks c + if s.buysBack n c info then 1 else 0
  additions : s'.additions c = s.additions c
  now : s'.now = s.now

theorem BuybackServiced.idle (hinfo : s.infos.get c = some info)
    (hnot : s.buysBack n c info = false) (hsame : ∀ d, d ≠ c → SameAt d s s')
    (hinfos : s'.infos = s.infos) (hbuybacks : s'.buybacks c = s.buybacks c)
    (hadditions : s'.additions c = s.additions c) (hnow : s'.now = s.now) :
    BuybackServiced n c info s s' where
  others := hsame
  infos := by simp [hnot, hinfos, hinfo]
  buybacks := by simp [hnot, hbuybacks]
  additions := hadditions
  now := hnow

theorem serviceBuyback_serviced (hinfo : s.infos.get c = some info) :
    BuybackServiced n c info s (s.serviceBuyback n c info) := by
  unfold State.serviceBuyback
  simp only
  split
  · rename_i hcycle
    have hnot : s.buysBack n c info = false := by
      simp [State.buysBack, Nat.not_lt.mpr hcycle]
    exact .idle hinfo hnot (fun d _ => .refl d s) rfl rfl rfl rfl
  · rename_i hcycle
    split
    · rename_i hquote
      have hnot : s.buysBack n c info = false := by
        have hne : info.target cfg c + 1 ≠ n - info.lastBuybackCycle := by
          rw [Info.target, hquote]
          omega
        simp [State.buysBack, hne]
      split
      · exact .idle hinfo hnot (fun d _ => .depositEvent s rfl rfl) rfl
          (SameAt.depositEvent s rfl rfl).buybacks (SameAt.depositEvent s rfl rfl).additions rfl
      · rename_i s' hs'
        simp only [State.setSwapOutMin, bind_eq_ok, pure_eq_ok] at hs'
        obtain ⟨amount, -, rfl⟩ := hs'
        refine .idle hinfo hnot (fun d hd => ?_) rfl
          (SameAt.depositEvent s rfl rfl).buybacks (SameAt.depositEvent s rfl rfl).additions rfl
        have hwrite : SameAt d s { s with swapOutMin := s.swapOutMin.write c (some amount) } :=
          ⟨rfl, Table.get_write_ne _ _ hd, rfl, rfl, rfl⟩
        exact hwrite.trans (.depositEvent _ rfl rfl)
    · split
      · rename_i hdue
        have htarget : info.target cfg c + 1 = n - info.lastBuybackCycle := by
          rw [Info.target, hdue]
          omega
        split
        · rename_i swapOutMin hget
          have hdo : s.buysBack n c info = true := by
            simp [State.buysBack, htarget, hget, Nat.not_le.mp hcycle]
          obtain ⟨e, world, hb, ha, hwork⟩ := tryBuyBack_eq s n c info swapOutMin
          have hadditions (d : CurrencyId) : (s.depositEvent e).additions d = s.additions d := by
            simp [additions_depositEvent, ha]
          simp only [hwork]
          refine ⟨fun d hd => ?_, ?_, ?_, hadditions c, rfl⟩
          · refine ⟨Table.get_write_ne _ _ hd, Table.get_write_ne _ _ hd, rfl, ?_, hadditions d⟩
            have hbuybacks := buybacks_depositEvent s e d
            rw [hb, decide_eq_false hd.symm] at hbuybacks
            exact hbuybacks
          · rw [hdo]
            exact Table.get_write_self _ _ _
          · have hbuybacks := buybacks_depositEvent s e c
            rw [hb, decide_eq_true rfl] at hbuybacks
            rw [hdo]
            exact hbuybacks
        · rename_i hget
          have hnot : s.buysBack n c info = false := by
            simp [State.buysBack, hget]
          exact .idle hinfo hnot (fun d _ => .refl d s) rfl rfl rfl rfl
      · rename_i hnotquote hdue
        have hnot : s.buysBack n c info = false := by
          have hne : info.target cfg c + 1 ≠ n - info.lastBuybackCycle := by
            rw [Info.target]
            omega
          simp [State.buysBack, hne]
        exact .idle hinfo hnot (fun d _ => .refl d s) rfl rfl rfl rfl

def State.advanced (s : State cfg) (n : ℕ) (c : CurrencyId) (info : Info) : Info :=
  let info' := if s.addsLiquidity n c info then info.liquidityAdded else info
  if s.buysBack n c info then info'.boughtBack n else info'

/-- A block has done for a currency what was due. -/
structure Serviced (n : ℕ) (c : CurrencyId) (info : Info) (s s' : State cfg) : Prop where
  infos : s'.infos.get c = some (s.advanced n c info)
  buybacks : s'.buybacks c = s.buybacks c + if s.buysBack n c info then 1 else 0
  additions : s'.additions c = s.additions c + if s.addsLiquidity n c info then 1 else 0

theorem SameAt.addsLiquidity (h : SameAt c s s') (n : ℕ) (info : Info) :
    s'.addsLiquidity n c info = s.addsLiquidity n c info := by
  simp only [State.addsLiquidity, h.addLiquiditySwapOutMin]

theorem SameAt.buysBack (h : SameAt c s s') (n : ℕ) (info : Info) :
    s'.buysBack n c info = s.buysBack n c info := by
  simp only [State.buysBack, h.swapOutMin]

theorem Serviced.after (h : Serviced n c info s s') {s'' : State cfg} (hsame : SameAt c s' s'') :
    Serviced n c info s s'' where
  infos := hsame.infos.trans h.infos
  buybacks := hsame.buybacks.trans h.buybacks
  additions := hsame.additions.trans h.additions

theorem Serviced.before {s'' : State cfg} (hsame : SameAt c s s')
    (h : Serviced n c info s' s'') : Serviced n c info s s'' where
  infos := by simpa only [State.advanced, hsame.addsLiquidity, hsame.buysBack] using h.infos
  buybacks := by rw [h.buybacks, hsame.buybacks, hsame.buysBack]
  additions := by rw [h.additions, hsame.additions, hsame.addsLiquidity]

theorem service_spec (hn : 0 < n) (hinfo : s.infos.get c = some info) :
    (∀ d, (d = c → info.ifAuto = false) → SameAt d s (State.service n s (c, info))) ∧
      (info.ifAuto = true → Serviced n c info s (State.service n s (c, info))) ∧
      (State.service n s (c, info)).now = s.now := by
  unfold State.service
  split
  · have hliquidity := serviceLiquidity_serviced hn hinfo
    generalize s.serviceLiquidity n c info = r at hliquidity
    have hbuyback := serviceBuyback_serviced (n := n) hliquidity.infos
    have hdue : r.1.buysBack n c r.2 = s.buysBack n c info := by
      have hcycle : r.2.lastBuybackCycle = info.lastBuybackCycle ∧
          r.2.target cfg c = info.target cfg c := by
        rw [hliquidity.info_eq]
        split
        · exact ⟨rfl, rfl⟩
        · exact ⟨rfl, rfl⟩
      simp only [State.buysBack, hcycle.1, hcycle.2, hliquidity.swapOutMin]
    rename_i hauto
    refine ⟨fun d hd => ?_, fun _ => ⟨?_, ?_, ?_⟩, hbuyback.now.trans hliquidity.now⟩
    · have hne : d ≠ c := by
        intro heq
        rw [hd heq] at hauto
        contradiction
      exact (hliquidity.others d hne).trans (hbuyback.others d hne)
    · rw [hbuyback.infos, hdue, hliquidity.info_eq]
      rfl
    · rw [hbuyback.buybacks, hdue, hliquidity.buybacks]
    · rw [hbuyback.additions, hliquidity.additions]
  · rename_i hauto
    exact ⟨fun d _ => .refl d s, fun h => absurd h hauto, rfl⟩

theorem foldl_service {l : List (CurrencyId × Info)} (hn : 0 < n)
    (hnodup : (l.map Prod.fst).Nodup) (hl : ∀ e ∈ l, s.infos.get e.1 = some e.2) :
    (∀ d, (∀ e ∈ l, d = e.1 → e.2.ifAuto = false) → SameAt d s (l.foldl (State.service n) s)) ∧
      (∀ e ∈ l, e.2.ifAuto = true → Serviced n e.1 e.2 s (l.foldl (State.service n) s)) ∧
      (l.foldl (State.service n) s).now = s.now := by
  induction l generalizing s with
  | nil => exact ⟨fun d _ => .refl d s, fun e he => absurd he List.not_mem_nil, rfl⟩
  | cons e l ih =>
    obtain ⟨hhead, htail⟩ := List.nodup_cons.mp hnodup
    obtain ⟨hother, hself, hnow⟩ := service_spec hn (hl e List.mem_cons_self)
    have hne {e' : CurrencyId × Info} (he' : e' ∈ l) : e'.1 ≠ e.1 := by
      intro heq
      exact hhead (List.mem_map.mpr ⟨e', he', heq⟩)
    obtain ⟨hrest, hserviced, hnows⟩ := ih (s := State.service n s e) htail (by
      intro e' he'
      rw [(hother e'.1 fun heq => absurd heq (hne he')).infos]
      exact hl e' (List.mem_cons_of_mem e he'))
    rw [List.foldl_cons]
    refine ⟨?_, ?_, hnows.trans hnow⟩
    · intro d hd
      exact (hother d (hd e List.mem_cons_self)).trans
        (hrest d fun e' he' => hd e' (List.mem_cons_of_mem e he'))
    · intro e' he' hauto
      rcases List.mem_cons.mp he' with rfl | he'
      · exact (hself hauto).after (hrest e'.1 fun e'' he'' heq => absurd heq.symm (hne he''))
      · exact (hserviced e' he' hauto).before
          (hother e'.1 fun heq => absurd heq (hne he'))

theorem onInitialize_spec (hn : 0 < s.now) :
    (∀ c info, s.infos.get c = some info → info.ifAuto = true →
      Serviced s.now c info s s.onInitialize) ∧
    (∀ c info', s.onInitialize.infos.get c = some info' → info'.ifAuto = true → ∃ info,
      s.infos.get c = some info ∧ info.ifAuto = true ∧ info' = s.advanced s.now c info) ∧
    s.onInitialize.now = s.now := by
  have hperm := cfg.iter_perm s.infos
  have hnodup : ((cfg.iter s.infos).map Prod.fst).Nodup :=
    (hperm.map Prod.fst).nodup_iff.mpr s.infos.keys_nodup
  have hmem {c : CurrencyId} {info : Info} :
      (c, info) ∈ cfg.iter s.infos ↔ s.infos.get c = some info :=
    hperm.mem_iff.trans Table.mem_entries
  obtain ⟨hsame, hserviced, hnow⟩ := foldl_service hn hnodup fun e he => hmem.mp he
  have hall (c : CurrencyId) (info : Info) (hinfo : s.infos.get c = some info)
      (hauto : info.ifAuto = true) : Serviced s.now c info s s.onInitialize :=
    hserviced (c, info) (hmem.mpr hinfo) hauto
  refine ⟨hall, fun c info' hinfo' hauto => ?_, hnow⟩
  by_cases hsome : ∃ info, s.infos.get c = some info ∧ info.ifAuto = true
  · obtain ⟨info, hinfo, hauto'⟩ := hsome
    refine ⟨info, hinfo, hauto', ?_⟩
    rw [(hall c info hinfo hauto').infos] at hinfo'
    exact (Option.some.inj hinfo').symm
  · have hleft : SameAt c s s.onInitialize := by
      apply hsame
      intro e he heq
      rw [Bool.eq_false_iff]
      intro hauto'
      exact hsome ⟨e.2, heq ▸ hmem.mp he, hauto'⟩
    rw [hleft.infos] at hinfo'
    exact absurd ⟨info', hinfo', hauto⟩ hsome

/-! Time. -/

/-- The pallet, when each currency was configured, and what it has done since. -/
structure Observed (cfg : Config AccountId) where
  state : State cfg
  since : CurrencyId → ℕ
  buybacks : CurrencyId → ℕ
  additions : CurrencyId → ℕ

namespace Observed

def after (o : Observed cfg) (s' : State cfg) : Call cfg → Observed cfg
  | .setVtoken c _ _ _ _ _ _ _ => {
      state := s'
      since := Function.update o.since c o.state.now
      buybacks := Function.update o.buybacks c 0
      additions := Function.update o.additions c 0 }
  | _ => { o with
      state := s'
      buybacks := fun c => o.buybacks c + (s'.buybacks c - o.state.buybacks c)
      additions := fun c => o.additions c + (s'.additions c - o.state.additions c) }

def step (o : Observed cfg) (call : Origin AccountId × Call cfg) : Except Fault (Observed cfg) :=
  (BuyBack.step o.state call).map fun s' => o.after s' call.2

theorem after_state (o : Observed cfg) (s' : State cfg) (call : Call cfg) :
    (o.after s' call).state = s' := by
  cases call with
  | setVtoken => rfl
  | charge | removeVtoken | block | outside => rfl

theorem step_ok {o o' : Observed cfg} {call : Origin AccountId × Call cfg} :
    step o call = .ok o' ↔ ∃ s', BuyBack.step o.state call = .ok s' ∧ o' = o.after s' call.2 := by
  unfold step
  cases BuyBack.step o.state call with
  | error e => simp [Except.map]
  | ok s' => simp [Except.map, eq_comm]

end Observed

/-- The schedules of a currency at a block: as many buy-backs as cycles have ended, or one more, and
as many additions as their durations have passed; the block each waits for is still to come. -/
structure OnSchedule (o : Observed cfg) (c : CurrencyId) (info : Info) : Prop where
  cycles : info.lastBuybackCycle = o.since c + o.buybacks c * info.buybackDuration
  additions : info.lastAddLiquidity = o.since c + o.additions c * info.addLiquidityDuration
  cycle_begun : info.lastBuybackCycle < o.state.now + info.buybackDuration
  cycle_current : o.state.now < info.lastBuybackCycle + info.buybackDuration
  buyback_ahead : o.state.now ≤ info.lastBuybackCycle + info.target cfg c
  addition_current : info.lastAddLiquidity ≤ o.state.now
  addition_ahead : o.state.now < info.lastAddLiquidity + info.addLiquidityDuration

def Scheduled (o : Observed cfg) : Prop :=
  ∀ c info, o.state.infos.get c = some info → info.ifAuto = true → OnSchedule o c info

structure Ready (s : State cfg) (n : ℕ) (c : CurrencyId) (info : Info) : Prop where
  addition : info.lastAddLiquidity + info.addLiquidityDuration = n →
    (s.addLiquiditySwapOutMin.get c).isSome = true
  buyback : info.lastBuybackCycle + info.target cfg c + 1 = n →
    (s.swapOutMin.get c).isSome = true ∧ info.lastBuybackCycle + info.buybackDuration ≤ u32Max
  duration : 2 ≤ info.buybackDuration

/-- Durations and blocks are block numbers. -/
structure Typed (s : State cfg) : Prop where
  now : s.now ≤ u32Max
  durations : ∀ c info, s.infos.get c = some info → info.ifAuto = true →
    0 < info.buybackDuration ∧ 0 < info.addLiquidityDuration ∧ info.addLiquidityDuration ≤ u32Max

/-! What a block makes of each field. -/

section Advanced

variable (s : State cfg) (n : ℕ) (c : CurrencyId) (info : Info)

theorem advanced_lastAddLiquidity : (s.advanced n c info).lastAddLiquidity =
    if s.addsLiquidity n c info then
      U32.wrappingAdd info.lastAddLiquidity info.addLiquidityDuration
    else info.lastAddLiquidity := by
  unfold State.advanced
  cases s.addsLiquidity n c info with
  | true => cases s.buysBack n c info with
    | true => rfl
    | false => rfl
  | false => cases s.buysBack n c info with
    | true => rfl
    | false => rfl

theorem advanced_lastBuybackCycle : (s.advanced n c info).lastBuybackCycle =
    if s.buysBack n c info then U32.saturatingAdd info.lastBuybackCycle info.buybackDuration
    else info.lastBuybackCycle := by
  unfold State.advanced
  cases s.addsLiquidity n c info with
  | true => cases s.buysBack n c info with
    | true => rfl
    | false => rfl
  | false => cases s.buysBack n c info with
    | true => rfl
    | false => rfl

theorem advanced_constant :
    (s.advanced n c info).buybackDuration = info.buybackDuration ∧
      (s.advanced n c info).addLiquidityDuration = info.addLiquidityDuration ∧
      (s.advanced n c info).ifAuto = info.ifAuto := by
  unfold State.advanced
  cases s.addsLiquidity n c info with
  | true => cases s.buysBack n c info with
    | true => exact ⟨rfl, rfl, rfl⟩
    | false => exact ⟨rfl, rfl, rfl⟩
  | false => cases s.buysBack n c info with
    | true => exact ⟨rfl, rfl, rfl⟩
    | false => exact ⟨rfl, rfl, rfl⟩

theorem advanced_target (h : s.buysBack n c info = false) :
    (s.advanced n c info).target cfg c = info.target cfg c := by
  unfold State.advanced
  simp only [h]
  cases s.addsLiquidity n c info with
  | true => rfl
  | false => rfl

end Advanced

theorem wrappingAdd_eq_iff {a b now : ℕ} (ha : a ≤ now) (hn : now + 1 ≤ u32Max)
    (hb : b ≤ u32Max) : U32.wrappingAdd a b = now + 1 ↔ a + b = now + 1 := by
  unfold U32.wrappingAdd u32Max at *
  by_cases hlt : a + b < 2 ^ 32
  · rw [Nat.mod_eq_of_lt hlt]
  · have hmod : (a + b) % 2 ^ 32 = a + b - 2 ^ 32 := by
      rw [Nat.mod_eq_sub_mod (by omega)]
      exact Nat.mod_eq_of_lt (by omega)
    rw [hmod]
    omega

theorem addition_iff {o : Observed cfg} (ho : OnSchedule o c info)
    (hmax : o.state.now + 1 ≤ u32Max) (hpos : 0 < info.addLiquidityDuration)
    (hle : info.addLiquidityDuration ≤ u32Max) :
    ((o.state.advanced (o.state.now + 1) c info).lastAddLiquidity = o.since c +
        (o.additions c + if o.state.addsLiquidity (o.state.now + 1) c info then 1 else 0) *
          info.addLiquidityDuration ∧
      (o.state.advanced (o.state.now + 1) c info).lastAddLiquidity ≤ o.state.now + 1 ∧
      o.state.now + 1 < (o.state.advanced (o.state.now + 1) c info).lastAddLiquidity +
        info.addLiquidityDuration) ↔
    (info.lastAddLiquidity + info.addLiquidityDuration = o.state.now + 1 →
      (o.state.addLiquiditySwapOutMin.get c).isSome = true) := by
  have hwrap := wrappingAdd_eq_iff ho.addition_current hmax hle
  have hadditions := ho.additions
  have hcurrent := ho.addition_current
  have hahead := ho.addition_ahead
  rw [advanced_lastAddLiquidity]
  cases hadds : o.state.addsLiquidity (o.state.now + 1) c info with
  | true =>
    simp only [State.addsLiquidity, decide_eq_true_eq, hwrap] at hadds
    rw [hwrap.mpr hadds.1]
    simp only [if_true, Nat.add_mul, Nat.one_mul]
    exact iff_of_true (by omega) fun _ => hadds.2
  | false =>
    simp only [State.addsLiquidity, decide_eq_false_iff_not, hwrap, not_and] at hadds
    simp only [Bool.false_eq_true, if_false, Nat.add_zero]
    constructor
    · rintro ⟨-, -, hlt⟩ heq
      omega
    · intro hquote
      have hne : info.lastAddLiquidity + info.addLiquidityDuration ≠ o.state.now + 1 :=
        fun heq => hadds heq (hquote heq)
      omega

theorem buyback_iff {o : Observed cfg} (ho : OnSchedule o c info)
    (hpos : 0 < info.buybackDuration) :
    ((o.state.advanced (o.state.now + 1) c info).lastBuybackCycle = o.since c +
        (o.buybacks c + if o.state.buysBack (o.state.now + 1) c info then 1 else 0) *
          info.buybackDuration ∧
      (o.state.advanced (o.state.now + 1) c info).lastBuybackCycle <
        o.state.now + 1 + info.buybackDuration ∧
      o.state.now + 1 < (o.state.advanced (o.state.now + 1) c info).lastBuybackCycle +
        info.buybackDuration ∧
      o.state.now + 1 ≤ (o.state.advanced (o.state.now + 1) c info).lastBuybackCycle +
        (o.state.advanced (o.state.now + 1) c info).target cfg c) ↔
    (info.lastBuybackCycle + info.target cfg c + 1 = o.state.now + 1 →
      (o.state.swapOutMin.get c).isSome = true ∧
        info.lastBuybackCycle + info.buybackDuration ≤ u32Max) ∧ 2 ≤ info.buybackDuration := by
  have hcycles := ho.cycles
  have hbegun := ho.cycle_begun
  have hcurrent := ho.cycle_current
  have hahead := ho.buyback_ahead
  have htarget := target_pos cfg info c
  have hroom := target_lt cfg info c
  have hone := target_of_one cfg info c
  have hnext := target_pos cfg (o.state.advanced (o.state.now + 1) c info) c
  rw [advanced_lastBuybackCycle]
  cases hbuys : o.state.buysBack (o.state.now + 1) c info with
  | true =>
    simp only [State.buysBack, decide_eq_true_eq] at hbuys
    obtain ⟨hlt, hdue, hquote⟩ := hbuys
    simp only [if_true, Nat.add_mul, Nat.one_mul, U32.saturatingAdd]
    constructor
    · rintro ⟨heq, -, -, -⟩
      refine ⟨fun _ => ⟨hquote, by omega⟩, ?_⟩
      by_contra hshort
      have htarget := hone (by omega)
      omega
    · rintro ⟨hfits, hlong⟩
      have hmax := (hfits (by omega)).2
      have hlt' := hroom hlong
      rw [Nat.min_eq_left hmax]
      omega
  | false =>
    simp only [State.buysBack, decide_eq_false_iff_not, not_and] at hbuys
    simp only [Bool.false_eq_true, if_false, Nat.add_zero]
    rw [advanced_target _ _ _ _ (by simpa [State.buysBack] using hbuys)]
    constructor
    · rintro ⟨-, -, hlt, hle⟩
      refine ⟨fun heq => by omega, ?_⟩
      by_contra hshort
      have htarget := hone (by omega)
      omega
    · rintro ⟨hquote, hlong⟩
      have hlt' := hroom hlong
      have hne : info.lastBuybackCycle + info.target cfg c + 1 ≠ o.state.now + 1 := by
        intro heq
        exact hbuys (by omega) (by omega) (hquote heq).1
      omega

/-! Runs. -/

def AllReady (s : State cfg) (call : Origin AccountId × Call cfg) : Prop :=
  match call.2 with
  | .block => ∀ c info, s.infos.get c = some info → info.ifAuto = true → Ready s (s.now + 1) c info
  | _ => True

def State.next (s : State cfg) : State cfg := { s with now := s.now + 1 }.onInitialize

theorem next_spec (s : State cfg) :
    (∀ c info, s.infos.get c = some info → info.ifAuto = true →
      Serviced (s.now + 1) c info s s.next) ∧
    (∀ c info', s.next.infos.get c = some info' → info'.ifAuto = true → ∃ info,
      s.infos.get c = some info ∧ info.ifAuto = true ∧ info' = s.advanced (s.now + 1) c info) ∧
    s.next.now = s.now + 1 := by
  obtain ⟨hserviced, hcome, hnow⟩ :=
    onInitialize_spec (s := { s with now := s.now + 1 }) (Nat.succ_pos _)
  refine ⟨fun c info hinfo hauto => ?_, hcome, hnow⟩
  obtain ⟨hinfos, hbuybacks, hadditions⟩ := hserviced c info hinfo hauto
  exact ⟨hinfos, hbuybacks, hadditions⟩

theorem next_onSchedule_iff {o : Observed cfg} (ho : OnSchedule o c info)
    (hmax : o.state.now + 1 ≤ u32Max) (hbuyback : 0 < info.buybackDuration)
    (hpos : 0 < info.addLiquidityDuration) (hle : info.addLiquidityDuration ≤ u32Max)
    (hserviced : Serviced (o.state.now + 1) c info o.state o.state.next) :
    OnSchedule (o.after o.state.next .block) c (o.state.advanced (o.state.now + 1) c info) ↔
      Ready o.state (o.state.now + 1) c info := by
  have hnow : (o.after o.state.next .block).state.now = o.state.now + 1 :=
    (next_spec o.state).2.2
  obtain ⟨hD, hA, -⟩ := advanced_constant o.state (o.state.now + 1) c info
  have hbuybacks : (o.after o.state.next .block).buybacks c =
      o.buybacks c + if o.state.buysBack (o.state.now + 1) c info then 1 else 0 := by
    have hcount : o.buybacks c + (o.state.next.buybacks c - o.state.buybacks c) =
        o.buybacks c + if o.state.buysBack (o.state.now + 1) c info then 1 else 0 := by
      rw [hserviced.buybacks, Nat.add_sub_cancel_left]
    exact hcount
  have hadditions : (o.after o.state.next .block).additions c =
      o.additions c + if o.state.addsLiquidity (o.state.now + 1) c info then 1 else 0 := by
    have hcount : o.additions c + (o.state.next.additions c - o.state.additions c) =
        o.additions c + if o.state.addsLiquidity (o.state.now + 1) c info then 1 else 0 := by
      rw [hserviced.additions, Nat.add_sub_cancel_left]
    exact hcount
  have hsince : (o.after o.state.next .block).since c = o.since c := rfl
  have hadd := addition_iff ho hmax hpos hle
  have hbuy := buyback_iff ho hbuyback
  constructor
  · intro h
    obtain ⟨h1, h2, h3, h4, h5, h6, h7⟩ := h
    rw [hsince, hbuybacks, hD] at h1
    rw [hsince, hadditions, hA] at h2
    rw [hnow, hD] at h3 h4
    rw [hnow] at h5 h6
    rw [hnow, hA] at h7
    have hbuyquote := hbuy.mp ⟨h1, h3, h4, h5⟩
    exact ⟨hadd.mp ⟨h2, h6, h7⟩, hbuyquote.1, hbuyquote.2⟩
  · intro h
    obtain ⟨h1, h2, h3⟩ := hadd.mpr h.addition
    obtain ⟨h4, h5, h6, h7⟩ := hbuy.mpr ⟨h.buyback, h.duration⟩
    refine ⟨?_, ?_, ?_, ?_, ?_, ?_, ?_⟩
    · rw [hsince, hbuybacks, hD, h4]
    · rw [hsince, hadditions, hA, h1]
    · rw [hnow, hD]
      exact h5
    · rw [hnow, hD]
      exact h6
    · rw [hnow]
      exact h7
    · rw [hnow]
      exact h2
    · rw [hnow, hA]
      exact h3

theorem block_scheduled_iff {o : Observed cfg} (ho : Scheduled o) (htyped : Typed o.state)
    (hmax : o.state.now + 1 ≤ u32Max) :
    Scheduled (o.after o.state.next .block) ↔
      ∀ c info, o.state.infos.get c = some info → info.ifAuto = true →
        Ready o.state (o.state.now + 1) c info := by
  obtain ⟨hserviced, hcome, -⟩ := next_spec o.state
  have hone (c : CurrencyId) (info : Info) (hinfo : o.state.infos.get c = some info)
      (hauto : info.ifAuto = true) :
      OnSchedule (o.after o.state.next .block) c (o.state.advanced (o.state.now + 1) c info) ↔
        Ready o.state (o.state.now + 1) c info := by
    obtain ⟨hbuyback, hpos, hle⟩ := htyped.durations c info hinfo hauto
    exact next_onSchedule_iff (ho c info hinfo hauto) hmax hbuyback hpos hle
      (hserviced c info hinfo hauto)
  constructor
  · intro h c info hinfo hauto
    refine (hone c info hinfo hauto).mp (h c _ (hserviced c info hinfo hauto).infos ?_)
    rw [← hauto]
    exact (advanced_constant o.state _ c info).2.2
  · intro h c info' hinfo' hauto'
    obtain ⟨info, hinfo, hauto, rfl⟩ := hcome c info' hinfo' hauto'
    exact (hone c info hinfo hauto).mpr (h c info hinfo hauto)

theorem next_typed (htyped : Typed s) (hmax : s.now + 1 ≤ u32Max) : Typed s.next := by
  obtain ⟨-, hcome, hnow⟩ := next_spec s
  refine ⟨by rw [hnow]; exact hmax, fun c info' hinfo' hauto' => ?_⟩
  obtain ⟨info, hinfo, hauto, rfl⟩ := hcome c info' hinfo' hauto'
  obtain ⟨hD, hA, -⟩ := advanced_constant s (s.now + 1) c info
  rw [hD, hA]
  exact htyped.durations c info hinfo hauto

theorem Scheduled.aside {o o' : Observed cfg} (ho : Scheduled o)
    (hinfos : ∀ c info, o'.state.infos.get c = some info → o.state.infos.get c = some info)
    (hnow : o'.state.now = o.state.now) (hsince : o'.since = o.since)
    (hbuybacks : o'.buybacks = o.buybacks) (hadditions : o'.additions = o.additions) :
    Scheduled o' := by
  intro c info hinfo hauto
  obtain ⟨h1, h2, h3, h4, h5, h6, h7⟩ := ho c info (hinfos c info hinfo) hauto
  refine ⟨?_, ?_, ?_, ?_, ?_, ?_, ?_⟩
  · rw [hsince, hbuybacks, h1]
  · rw [hsince, hadditions, h2]
  · rw [hnow]
    exact h3
  · rw [hnow]
    exact h4
  · rw [hnow]
    exact h5
  · rw [hnow]
    exact h6
  · rw [hnow]
    exact h7

theorem Typed.aside (hs : Typed s)
    (hinfos : ∀ c info, s'.infos.get c = some info → s.infos.get c = some info)
    (hnow : s'.now = s.now) : Typed s' :=
  ⟨hnow ▸ hs.now, fun c info hinfo => hs.durations c info (hinfos c info hinfo)⟩

theorem after_counts (o : Observed cfg) (s' : State cfg) (hevents : s'.events = o.state.events) :
    (fun c => o.buybacks c + (s'.buybacks c - o.state.buybacks c)) = o.buybacks ∧
      (fun c => o.additions c + (s'.additions c - o.state.additions c)) = o.additions := by
  constructor
  · funext c
    simp [State.buybacks, hevents]
  · funext c
    simp [State.additions, hevents]

theorem step_scheduled_iff {o o' : Observed cfg} {call : Origin AccountId × Call cfg}
    (htyped : Typed o.state) (ho : Scheduled o) (h : Observed.step o call = .ok o') :
    (Scheduled o' ↔ AllReady o.state call) ∧ Typed o'.state := by
  obtain ⟨s', hs', rfl⟩ := Observed.step_ok.mp h
  obtain ⟨origin, call⟩ := call
  cases call with
  | block =>
    have hblock : ∃ now, U32.checkedAdd o.state.now 1 = some now ∧
        State.onInitialize { o.state with now } = s' := by
      cases origin with
      | signed who => simpa only [step, bind_eq_ok, okOr_eq_ok, pure_eq_ok] using hs'
      | control => simpa only [step, bind_eq_ok, okOr_eq_ok, pure_eq_ok] using hs'
    obtain ⟨now, hnow, rfl⟩ := hblock
    obtain ⟨rfl, hmax⟩ := U32.checkedAdd_eq_some.mp hnow
    exact ⟨block_scheduled_iff ho htyped hmax, next_typed htyped hmax⟩
  | outside world =>
    have heq : { o.state with world } = s' := by
      cases origin with
      | signed who => simpa only [step, pure_eq_ok] using hs'
      | control => simpa only [step, pure_eq_ok] using hs'
    subst heq
    have hcounts := after_counts o { o.state with world } rfl
    exact ⟨iff_of_true (ho.aside (fun _ _ h => h) rfl rfl hcounts.1 hcounts.2) trivial,
      htyped.aside (fun _ _ h => h) rfl⟩
  | charge currency value =>
    cases origin with
    | control => simp [step] at hs'
    | signed who =>
      simp only [step, State.charge, bind_eq_ok, pure_eq_ok] at hs'
      obtain ⟨-, -, world, -, rfl⟩ := hs'
      have hcounts := after_counts o { o.state with world } rfl
      exact ⟨iff_of_true (ho.aside (fun _ _ h => h) rfl rfl hcounts.1 hcounts.2) trivial,
        htyped.aside (fun _ _ h => h) rfl⟩
  | removeVtoken currency =>
    cases origin with
    | signed who => simp [step] at hs'
    | control =>
      simp only [step, State.removeVtoken, bind_eq_ok, ensure_eq_ok, exists_const,
        pure_eq_ok] at hs'
      obtain ⟨-, rfl⟩ := hs'
      have hinfos (c : CurrencyId) (info : Info)
          (h : (o.state.infos.write currency none).get c = some info) :
          o.state.infos.get c = some info := by
        rw [Table.get_write] at h
        split at h
        · contradiction
        · exact h
      have hcounts := after_counts o
        { o.state with infos := o.state.infos.write currency none } rfl
      exact ⟨iff_of_true (ho.aside hinfos rfl rfl hcounts.1 hcounts.2) trivial,
        htyped.aside hinfos rfl⟩
  | setVtoken currency minSwapValue proportion buybackDuration addLiquidityDuration ifAuto
      destructionRatio bias =>
    cases origin with
    | signed who => simp [step] at hs'
    | control =>
      simp only [step, State.setVtoken, bind_eq_ok, ensure_eq_ok, exists_const, pure_eq_ok] at hs'
      obtain ⟨-, -, -, hbuyback, haddition, rfl⟩ := hs'
      refine ⟨iff_of_true ?_ trivial, htyped.now, ?_⟩
      · intro c info hinfo hauto
        simp only [Observed.after, Table.get_write] at hinfo
        by_cases hc : c = currency
        · subst c
          rw [if_pos rfl] at hinfo
          cases hinfo
          refine ⟨?_, ?_, ?_, ?_, ?_, ?_, ?_⟩
          · simp [Observed.after]
          · simp [Observed.after]
          · exact Nat.lt_add_of_pos_right hbuyback
          · exact Nat.lt_add_of_pos_right hbuyback
          · exact Nat.le_add_right _ _
          · exact Nat.le_refl _
          · exact Nat.lt_add_of_pos_right haddition
        · rw [if_neg hc] at hinfo
          obtain ⟨h1, h2, h3, h4, h5, h6, h7⟩ := ho c info hinfo hauto
          refine ⟨?_, ?_, h3, h4, h5, h6, h7⟩
          · simpa only [Observed.after, Function.update_of_ne hc] using h1
          · simpa only [Observed.after, Function.update_of_ne hc] using h2
      · intro c info hinfo hauto
        simp only [Observed.after, Table.get_write] at hinfo
        split at hinfo
        · cases hinfo
          have hlt := addLiquidityDuration.toNat_lt
          have hmax : addLiquidityDuration.toNat ≤ u32Max := by
            unfold u32Max
            omega
          exact ⟨hbuyback, haddition, hmax⟩
        · exact htyped.durations c info hinfo hauto

def Observed.start (cfg : Config AccountId) (world : cfg.World) (now : UInt32) : Observed cfg :=
  ⟨State.start cfg world now, fun _ => 0, fun _ => 0, fun _ => 0⟩

/-- All schedules are on time exactly in the runs whose blocks find the prices they need. -/
theorem schedules_on_time_iff (cfg : Config AccountId) (world : cfg.World) (now : UInt32)
    (calls : List (Origin AccountId × Call cfg)) :
    Always Observed.step Scheduled (Observed.start cfg world now) calls ↔
      Meets Observed.step (fun o call => AllReady o.state call) (Observed.start cfg world now)
        calls := by
  have hstep (o : Observed cfg) (call : Origin AccountId × Call cfg) (o' : Observed cfg)
      (_ : True) (htyped : Typed o.state) (ho : Scheduled o) (h : Observed.step o call = .ok o') :
      (Scheduled o' ↔ AllReady o.state call) ∧ (Scheduled o' → Typed o'.state) := by
    obtain ⟨hiff, htyped'⟩ := step_scheduled_iff htyped ho h
    exact ⟨hiff, fun _ => htyped'⟩
  have hnow := now.toNat_lt
  have hempty (c : CurrencyId) (info : Info)
      (h : (Observed.start cfg world now).state.infos.get c = some info) : False := by
    simp [Observed.start, State.start] at h
  refine always_iff_meets hstep (fun _ _ => trivial) ⟨?_, ?_⟩ ?_
  · change now.toNat ≤ u32Max
    unfold u32Max
    omega
  · exact fun c info hinfo => (hempty c info hinfo).elim
  · exact fun c info hinfo => (hempty c info hinfo).elim

/-! What is missed stays missed. -/

/-- The block to buy back in, or to add liquidity in, has passed without it. -/
def MissedBuyback (s : State cfg) (c : CurrencyId) : Prop :=
  ∃ info, s.infos.get c = some info ∧ info.ifAuto = true ∧
    info.lastBuybackCycle + info.target cfg c + 1 ≤ s.now

def MissedAddition (s : State cfg) (c : CurrencyId) : Prop :=
  ∃ info, s.infos.get c = some info ∧ info.ifAuto = true ∧
    info.lastAddLiquidity + info.addLiquidityDuration ≤ s.now

def Call.Sets (c : CurrencyId) : Call cfg → Prop
  | .setVtoken d .. | .removeVtoken d => c = d
  | _ => False

theorem step_unset {call : Origin AccountId × Call cfg} (h : step s call = .ok s')
    (hcall : ¬ call.2.Sets c) :
    s.now + 1 ≤ u32Max ∧ s' = s.next ∨ SameAt c s s' ∧ s'.now = s.now := by
  obtain ⟨origin, call⟩ := call
  cases call with
  | block =>
    simp only [step, bind_eq_ok, okOr_eq_ok, pure_eq_ok] at h
    obtain ⟨now, hnow, rfl⟩ := h
    obtain ⟨rfl, hmax⟩ := U32.checkedAdd_eq_some.mp hnow
    exact .inl ⟨hmax, rfl⟩
  | outside world =>
    simp only [step, pure_eq_ok] at h
    subst h
    exact .inr ⟨⟨rfl, rfl, rfl, rfl, rfl⟩, rfl⟩
  | charge currency value =>
    cases origin with
    | control => simp [step] at h
    | signed who =>
      simp only [step, State.charge, bind_eq_ok, pure_eq_ok] at h
      obtain ⟨-, -, world, -, rfl⟩ := h
      exact .inr ⟨⟨rfl, rfl, rfl, rfl, rfl⟩, rfl⟩
  | removeVtoken currency =>
    cases origin with
    | signed who => simp [step] at h
    | control =>
      simp only [step, State.removeVtoken, bind_eq_ok, ensure_eq_ok, exists_const, pure_eq_ok] at h
      obtain ⟨-, rfl⟩ := h
      exact .inr ⟨⟨Table.get_write_ne _ _ hcall, rfl, rfl, rfl, rfl⟩, rfl⟩
  | setVtoken currency =>
    cases origin with
    | signed who => simp [step] at h
    | control =>
      simp only [step, State.setVtoken, bind_eq_ok, ensure_eq_ok, exists_const, pure_eq_ok] at h
      obtain ⟨-, -, -, -, -, rfl⟩ := h
      exact .inr ⟨⟨Table.get_write_ne _ _ hcall, rfl, rfl, rfl, rfl⟩, rfl⟩

theorem missed_buyback {call : Origin AccountId × Call cfg} (hs : MissedBuyback s c)
    (hcall : ¬ call.2.Sets c) (h : step s call = .ok s') :
    MissedBuyback s' c ∧ s'.buybacks c = s.buybacks c := by
  obtain ⟨info, hinfo, hauto, hmissed⟩ := hs
  rcases step_unset h hcall with ⟨-, rfl⟩ | ⟨hsame, hnow⟩
  · have hbuys : s.buysBack (s.now + 1) c info = false := by
      simp only [State.buysBack, decide_eq_false_iff_not, not_and]
      omega
    obtain ⟨hinfos, hbuybacks, -⟩ := (next_spec s).1 c info hinfo hauto
    rw [hbuys] at hbuybacks
    refine ⟨⟨_, hinfos, (advanced_constant s _ c info).2.2.trans hauto, ?_⟩, hbuybacks⟩
    rw [advanced_target s _ c info hbuys, advanced_lastBuybackCycle, hbuys, (next_spec s).2.2]
    exact Nat.le_succ_of_le hmissed
  · exact ⟨⟨info, hsame.infos.trans hinfo, hauto, hnow ▸ hmissed⟩, hsame.buybacks⟩

theorem missed_addition {call : Origin AccountId × Call cfg} (hs : MissedAddition s c)
    (hcall : ¬ call.2.Sets c) (h : step s call = .ok s') :
    MissedAddition s' c ∧ s'.additions c = s.additions c := by
  obtain ⟨info, hinfo, hauto, hmissed⟩ := hs
  rcases step_unset h hcall with ⟨hmax, rfl⟩ | ⟨hsame, hnow⟩
  · have hwrap : U32.wrappingAdd info.lastAddLiquidity info.addLiquidityDuration =
        info.lastAddLiquidity + info.addLiquidityDuration := by
      unfold u32Max at hmax
      exact Nat.mod_eq_of_lt (by omega)
    have hadds : s.addsLiquidity (s.now + 1) c info = false := by
      simp only [State.addsLiquidity, hwrap, decide_eq_false_iff_not, not_and]
      omega
    obtain ⟨hinfos, -, hadditions⟩ := (next_spec s).1 c info hinfo hauto
    obtain ⟨-, hduration, hauto'⟩ := advanced_constant s (s.now + 1) c info
    rw [hadds] at hadditions
    refine ⟨⟨_, hinfos, hauto'.trans hauto, ?_⟩, hadditions⟩
    rw [hduration, advanced_lastAddLiquidity, hadds, (next_spec s).2.2]
    exact Nat.le_succ_of_le hmissed
  · exact ⟨⟨info, hsame.infos.trans hinfo, hauto, hnow ▸ hmissed⟩, hsame.additions⟩

/-- Work that was missed is never made up for: until the currency is set anew, no run of blocks and
calls attempts it again. -/
theorem missed_never_resumes {calls : List (Origin AccountId × Call cfg)}
    (hcalls : ∀ call ∈ calls, ¬ call.2.Sets c) :
    (MissedBuyback s c → (run step s calls).buybacks c = s.buybacks c) ∧
      (MissedAddition s c → (run step s calls).additions c = s.additions c) := by
  have hmeets : Meets step (fun _ call => ¬ call.2.Sets c) s calls :=
    meets_of_forall calls (fun call hcall _ => hcalls call hcall) s
  refine ⟨fun hs => ?_, fun hs => ?_⟩
  · refine (run_invariant (I := fun t => MissedBuyback t c ∧ t.buybacks c = s.buybacks c)
      (fun t call t' ht hcall h => ?_) calls ⟨hs, rfl⟩ hmeets).2
    obtain ⟨hmissed, hsame⟩ := missed_buyback ht.1 hcall h
    exact ⟨hmissed, hsame.trans ht.2⟩
  · refine (run_invariant (I := fun t => MissedAddition t c ∧ t.additions c = s.additions c)
      (fun t call t' ht hcall h => ?_) calls ⟨hs, rfl⟩ hmeets).2
    obtain ⟨hmissed, hsame⟩ := missed_addition ht.1 hcall h
    exact ⟨hmissed, hsame.trans ht.2⟩

namespace Sample

/-- An exchange that quotes a price, or does not. -/
def config : Config ℕ where
  World := Bool
  freeBalance := fun _ _ _ => 1000
  transfer := fun w _ _ _ _ => .ok w
  withdraw := fun w _ _ _ => .ok w
  AssetId := CurrencyId
  tryConvertFrom := some
  getAmountOutByPath := fun w n _ => if w then .ok n else .error .dex
  innerSwapExactAssetsForAssets := fun w _ _ _ _ => .ok w
  innerAddLiquidity := fun w _ _ _ _ => .ok w
  checkVtokenRegistered := fun _ => true
  checkVtoken2Registered := fun _ => true
  encode := fun _ => [1, 0]
  buyBackAccount := 1
  buybackTo := 2
  liquidityAccount := 3
  iter := Table.entries
  iter_perm := fun _ => List.Perm.refl _

def vdot : CurrencyId := .vToken2 0

def configure (buybackDuration addLiquidityDuration : UInt32) : Origin ℕ × Call config :=
  (.control, .setVtoken vdot 100 .one buybackDuration addLiquidityDuration true none .zero)

end Sample

/-- The price comes back too late for the first addition. -/
theorem missed_never_resumes_late :
    let s := run step (State.start Sample.config false 0)
      [Sample.configure 10 2, (.control, .block), (.control, .block)]
    MissedAddition s Sample.vdot ∧ (run step s
      [(.control, .outside true), (.control, .block), (.control, .block)]).additions Sample.vdot =
        s.additions Sample.vdot := by
  intro s
  have hmissed : MissedAddition s Sample.vdot := ⟨_, rfl, rfl, by decide⟩
  exact ⟨hmissed, (missed_never_resumes (by simp [Call.Sets])).2 hmissed⟩

/-- A price that cannot be told stops the schedule of liquidity, and a cycle of one block ends
without a buy-back. -/
theorem schedule_stalls :
    ¬Always Observed.step Scheduled (Observed.start Sample.config false 0)
        [Sample.configure 10 2, (.control, .block), (.control, .block)] ∧
      ¬Always Observed.step Scheduled (Observed.start Sample.config true 0)
        [Sample.configure 1 2, (.control, .block)] := by
  constructor
  · rintro ⟨-, -, -, hlast⟩
    exact absurd (hlast Sample.vdot _ rfl rfl).addition_ahead (by decide)
  · rintro ⟨-, -, hlast⟩
    exact absurd (hlast Sample.vdot _ rfl rfl).cycle_current (by decide)

end Bifrost.BuyBack
