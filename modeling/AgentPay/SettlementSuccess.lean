import AgentPay.EscrowConservation

/-!
# When a settlement goes through

For every reachable ledger and a settlement whose caller did everything right,
the instruction succeeds exactly under four conditions on the state before it.
Two of them are about the thirty-second tolerance, which must not overflow; one
is the payout guard; the last is about the address of the receipt, which must
hold no lamports before the first settlement, because the handler creates the
account by hand where `init` would have topped it up.

The second half follows a session from one settlement to a later one through
any calls in between. Refunds are all or nothing, so a later claim that is in
order fails exactly when the agent took an early refund in between.
-/
namespace AgentPay.SettlementSuccess
open SolanaRuntime EscrowState ClaimMessage EscrowProgram EscrowEffects EscrowInvariant
open EscrowConservation Fallible Runs

/-- A settlement as an authorised settler submits it in time: the accounts are
the session's own, the payee exists, the settler can pay rent, the agent's
signature precedes, and the claim is above what was settled. -/
structure SettleReady (rt : Runtime) (L : EscrowLedger) (now : Int64)
    (sysvar : InstructionsSysvar) (a : SettleAccounts) (args : SettleArgs) (s : Session) :
    Prop where
  loaded : sessionAt rt L a.session = some s
  mint : s.mint = a.mint
  vault : s.vault = a.vault
  record : ∃ bump,
    rt.findProgramAddress (settlementSeeds a.session) = some (a.settlementRecord, bump)
  payee : ∃ t, tokenAt L a.tokenProgram a.providerTokenAccount = some t ∧ t.mint = a.mint ∧
    t.owner = s.provider
  program : a.tokenProgram = tokenProgramId ∨ a.tokenProgram = token2022ProgramId
  vaultProgram : (L a.vault).owner = a.tokenProgram
  mintAccount : (L a.mint).owner = a.tokenProgram ∧ ∃ d, (L a.mint).data = .mint d
  settler : a.settler = s.settlementAuthority ∨ a.settler = s.provider
  signer : rt.Signer a.settler
  rent : s.isSettled = false →
    canPay L a.settler (rt.minimumBalance settlementRecordSpace) = .ok ()
  sessionTime : now.toInt ≤ s.expiresAt.toInt + 30
  claimTime : now.toInt ≤ args.claimExpiresAt.toInt + 30
  signed : verifyEd25519Claim sysvar s.agent (buildClaimMessage a.session args.cumulativeAmount
    args.nonce args.claimExpiresAt) = .ok ()
  increasing : s.cumulativeSettled.toNat < args.cumulativeAmount.toNat
  deposited : args.cumulativeAmount.toNat ≤ s.depositedTotal.toNat

section Success
variable {rt : Runtime} {L : EscrowLedger} {now : Int64} {sysvar : InstructionsSysvar}
variable {a : SettleAccounts} {args : SettleArgs} {s : Session}

theorem SettleReady.accountsValid (h : SettleReady rt L now sysvar a args s)
    (hs : SessionSound rt L a.session s) : ∃ bump, SettleAccountsValid rt L a s bump := by
  obtain ⟨bump, hb⟩ := h.record
  obtain ⟨t, ht, htm, hto⟩ := h.payee
  obtain ⟨hmo, d, hmd⟩ := h.mintAccount
  obtain ⟨hp, n, hn⟩ := hs.vault
  obtain ⟨htp, htd⟩ := tokenAt_eq_some.mp ht
  rw [h.vault] at hp hn
  refine ⟨bump, ?_⟩
  constructor
  case loaded => exact h.loaded
  case derived => exact hs.derived
  case mint => exact h.mint
  case vault => exact h.vault
  case record => exact hb
  case vaultToken => exact ⟨_, interfaceToken_eq_some.mpr ⟨hp, hn⟩⟩
  case vaultDerived =>
    have hv := hs.vaultDerived
    rwa [h.vault] at hv
  case payee =>
    refine ⟨t, interfaceToken_eq_some.mpr ⟨?_, htd⟩, htm, hto⟩
    rw [htp]
    exact h.program
  case mintAccount =>
    refine ⟨d, ?_⟩
    unfold interfaceMint
    rw [hmo, if_pos h.program, hmd]
    rfl
  case program => exact h.program

/-- The vault's token account is as the transfer expects it. -/
theorem SettleReady.vaultToken (h : SettleReady rt L now sysvar a args s)
    (hs : SessionSound rt L a.session s) :
    tokenAt L a.tokenProgram a.vault = some ⟨a.mint, a.session, balance L s.vault⟩ := by
  obtain ⟨-, n, hn⟩ := hs.vault
  rw [balance_of_token hn, tokenAt_eq_some]
  rw [h.vault, h.mint] at hn
  exact ⟨h.vaultProgram, hn⟩

/-- The transfer goes through exactly when the vault holds the amount. -/
theorem SettleReady.transfer_iff (h : SettleReady rt L now sysvar a args s)
    (hs : SessionSound rt L a.session s) {n : ℕ} :
    (∃ L₁, transferChecked rt L a.tokenProgram a.vault a.mint a.providerTokenAccount a.session n =
      .ok L₁) ↔ n ≤ balance L s.vault := by
  obtain ⟨t, ht, htm, -⟩ := h.payee
  have hv := h.vaultToken hs
  constructor
  · rintro ⟨L₁, hL₁⟩
    obtain ⟨src, dst, hsrc, -, hle, -⟩ := transferChecked_eq_ok.mp hL₁
    rw [hv] at hsrc
    obtain rfl := Option.some.inj hsrc
    exact hle
  · intro hle
    exact ⟨_, transferChecked_eq_ok.mpr
      ⟨_, t, hv, ht, hle, ⟨rfl, htm⟩, rfl, h.mintAccount.1, rfl⟩⟩

/-- The transfer and the update of the session leave every account alone that
holds no token and is not the session. -/
theorem transfer_frame {L₁ : EscrowLedger} {program source mint destination authority key : Pubkey}
    {n : ℕ} {d : ProgramData} {k : Pubkey}
    (ht : transferChecked rt L program source mint destination authority n = .ok L₁)
    (hk : k ≠ key) (hd : (L k).data.token? = none) : setData L₁ key d k = L k := by
  obtain ⟨src, dst, hsrc, hdst, -, -, -, -, rfl⟩ := transferChecked_eq_ok.mp ht
  rw [setData_of_ne hk]
  by_cases he : source = destination
  · rw [moveTokens, if_pos he]
  · rw [moveTokens_apply he]
    have h₁ : k ≠ destination := by
      rintro rfl
      rw [(tokenAt_eq_some.mp hdst).2] at hd
      cases hd
    have h₂ : k ≠ source := by
      rintro rfl
      rw [(tokenAt_eq_some.mp hsrc).2] at hd
      cases hd
    rw [if_neg h₁, if_neg h₂]

/-- Writing the receipt needs an address without lamports the first time. -/
theorem writeReceipt_iff {bump : UInt8} {L₂ : EscrowLedger} (hs : SessionSound rt L a.session s)
    (hf : rt.findProgramAddress (settlementSeeds a.session) = some (a.settlementRecord, bump))
    (hrent : s.isSettled = false →
      canPay L a.settler (rt.minimumBalance settlementRecordSpace) = .ok ())
    (hrecord : L₂ a.settlementRecord = L a.settlementRecord)
    (hsettler : s.isSettled = false → L₂ a.settler = L a.settler) :
    (∃ L', writeReceipt rt L₂ a bump now args = .ok L') ↔
      s.isSettled = true ∨ (L a.settlementRecord).lamports = 0 := by
  have hr := hs.receipt _ _ hf
  unfold writeReceipt
  rw [hrecord]
  split_ifs at hr with hset
  · obtain ⟨r, hr, hses, -⟩ := hr
    have hown := (recordAt_eq_some.mp hr).1
    have hr' : recordAt rt L₂ a.settlementRecord = some r := by
      unfold recordAt at hr ⊢
      rwa [hrecord]
    have hne : ¬(L a.settlementRecord).owner = systemProgramId := by
      rw [hown]
      exact rt.programId_ne_system
    rw [if_neg hne]
    refine iff_of_true ?_ (.inl hset)
    simp only [bind_eq_ok, require_eq_ok, okOr_eq_ok, pure_eq_ok]
    exact ⟨_, ⟨⟩, hown, r, hr', ⟨⟩, hses, rfl⟩
  · rw [Bool.not_eq_true] at hset
    rw [if_pos hr.1]
    simp only [bind_eq_ok, mapError_eq_ok, pure_eq_ok, createAccount_eq_ok, hset, false_or,
      Bool.false_eq_true, hrecord, hsettler hset, hr.1, hr.2, and_true]
    have hrent := canPay_eq_ok.mp (hrent hset)
    constructor
    · rintro ⟨_, _, ⟨hl, -⟩, -⟩
      exact hl
    · intro hl
      exact ⟨_, _, ⟨hl, hrent, rfl⟩, rfl⟩

/-- A settlement submitted as it should be succeeds exactly under these
conditions on the state before it. -/
theorem settle_ok_iff (hI : Sound rt L) (h : SettleReady rt L now sysvar a args s) :
    (∃ r, settleSession rt L now sysvar a args = .ok r) ↔
      s.expiresAt.toInt + 30 < 2 ^ 63 ∧ args.claimExpiresAt.toInt + 30 < 2 ^ 63 ∧
      args.cumulativeAmount.toNat + s.refundedTotal.toNat ≤ s.depositedTotal.toNat ∧
      args.cumulativeAmount.toNat ≤ s.cumulativeSettled.toNat + balance L s.vault ∧
      (s.isSettled = true ∨ (L a.settlementRecord).lamports = 0) := by
  have hs := hI.session _ _ h.loaded
  obtain ⟨bump, hv⟩ := h.accountsValid hs
  have hd := rt.derive_of_find hv.record
  have hrne := (session_ne_record hv.derived hd).symm
  have hrdata : (L a.settlementRecord).data.token? = none := by
    have hr := hs.receipt _ _ hv.record
    split_ifs at hr
    · obtain ⟨r, hr, -⟩ := hr
      rw [(recordAt_eq_some.mp hr).2]
      rfl
    · rw [hr.2]
      rfl
  have hsdata : s.isSettled = false → (L a.settler).data.token? = none := by
    intro hset
    rw [(canPay_eq_ok.mp (h.rent hset)).1.2]
    rfl
  have hsne : a.settler ≠ a.session := by
    intro he
    have hsig := h.signer
    rw [he] at hsig
    exact hsig (rt.programAddress_of_derive hs.derived)
  have hwrite : ∀ {L₁ : EscrowLedger} {n : ℕ},
      transferChecked rt L a.tokenProgram a.vault a.mint a.providerTokenAccount a.session n =
        .ok L₁ → ((∃ L', writeReceipt rt (setData L₁ a.session
          (.session (Session.settledAt s args.cumulativeAmount))) a bump now args = .ok L') ↔
            s.isSettled = true ∨ (L a.settlementRecord).lamports = 0) := by
    intro L₁ n ht
    exact writeReceipt_iff hs hv.record h.rent (transfer_frame ht hrne hrdata)
      (fun hset => transfer_frame ht hsne (hsdata hset))
  constructor
  · rintro ⟨⟨L', ev⟩, hok⟩
    obtain ⟨s', bump', delta, L₁, hv', -, hc, -, ham, ht, hw, -⟩ := settleSession_eq_ok.mp hok
    obtain rfl : s' = s := Option.some.inj (hv'.loaded.symm.trans h.loaded)
    obtain rfl : bump' = bump :=
      congrArg Prod.snd (Option.some.inj (hv'.record.symm.trans hv.record))
    have hc := settleChecks_eq_ok.mp hc
    have ham := settleAmounts_eq_ok.mp ham
    have hle := (h.transfer_iff hs).mp ⟨L₁, ht⟩
    exact ⟨hc.1.1, hc.2.1.1, ham.2, by omega, (hwrite ht).mp ⟨L', hw⟩⟩
  · rintro ⟨h₁, h₂, h₃, h₄, h₅⟩
    have hlt := args.cumulativeAmount.toNat_lt
    have hinc := h.increasing
    obtain ⟨delta, hdelta⟩ := UInt64.exists_toNat_eq
      (n := args.cumulativeAmount.toNat - s.cumulativeSettled.toNat) (by omega)
    obtain ⟨L₁, ht⟩ := (h.transfer_iff hs (n := delta.toNat)).mpr (by omega)
    obtain ⟨L', hw⟩ := (hwrite ht).mpr h₅
    exact ⟨_, settleSession_eq_ok.mpr ⟨s, bump, delta, L₁, hv, h.settler,
      settleChecks_eq_ok.mpr ⟨⟨h₁, h.sessionTime⟩, ⟨h₂, h.claimTime⟩, hinc, h.deposited⟩, h.signed,
      settleAmounts_eq_ok.mpr ⟨by omega, h₃⟩, ht, hw, rfl⟩⟩

end Success

/-- The accounts of the concrete deployment are in order for a settlement. -/
def BenchInOrder (L : EscrowLedger) (settler : Pubkey) (s : Session) (paid : ℕ) : Prop :=
  sessionAt Bench.runtime L Bench.session = some s ∧
    (L Bench.vault).owner = tokenProgramId ∧ L Bench.mint = ⟨1461600, tokenProgramId, .mint 6⟩ ∧
    tokenAt L tokenProgramId Bench.providerToken = some ⟨Bench.mint, Bench.provider, paid⟩ ∧
    ((L settler).owner = systemProgramId ∧ (L settler).data = .empty) ∧
    Bench.runtime.minimumBalance settlementRecordSpace ≤ (L settler).lamports

instance {L : EscrowLedger} {settler : Pubkey} {s : Session} {paid : ℕ} :
    Decidable (BenchInOrder L settler s paid) := inferInstanceAs (Decidable (_ ∧ _))

theorem bench_settleReady {L : EscrowLedger} {settled refunded amount nonce : UInt64}
    {settler : Pubkey} {now : Int64} {paid : ℕ}
    (h : BenchInOrder L settler (Bench.sessionWith settled refunded) paid)
    (hsettler : settler = Bench.authority ∨ settler = Bench.provider)
    (htime : now.toInt ≤ 4030) (hinc : settled < amount) (hdep : amount ≤ 1000) :
    SettleReady Bench.runtime L now (Bench.claimSysvar amount nonce)
      (Bench.settleAccounts settler) (Bench.settleArgs amount nonce)
      (Bench.sessionWith settled refunded) := by
  obtain ⟨hs, hvault, hmint, hpayee, hrent⟩ := h
  constructor
  case loaded => exact hs
  case mint => rfl
  case vault => rfl
  case record =>
    have hf : Bench.runtime.findProgramAddress (settlementSeeds Bench.session) =
      some (Bench.record, 255) := by decide +kernel
    exact ⟨255, hf⟩
  case payee => exact ⟨_, hpayee, rfl, rfl⟩
  case program => exact .inl rfl
  case vaultProgram => exact hvault
  case mintAccount =>
    rw [show (Bench.settleAccounts settler).mint = Bench.mint from rfl, hmint]
    exact ⟨rfl, 6, rfl⟩
  case settler => exact hsettler
  case signer =>
    apply Bench.signer_of_not_mem
    rcases hsettler with rfl | rfl
    · decide +kernel
    · decide +kernel
  case rent => exact fun _ => canPay_eq_ok.mpr hrent
  case sessionTime =>
    have he : (4030 : ℤ) ≤ (5000 : Int64).toInt + 30 := by decide
    exact htime.trans he
  case claimTime => exact htime
  case signed =>
    refine verify_buildEd25519Instruction ?_
    simp [buildClaimMessage, claimDomain, u64LeBytes, i64LeBytes, leBytes]
  case increasing => exact UInt64.lt_iff_toNat_lt.mp hinc
  case deposited => exact UInt64.le_iff_toNat_le.mp hdep

/-- For every reachable ledger: a settlement whose caller did everything right
and whose amount fits next to the refunds succeeds exactly when adding the
tolerance overflows neither expiry, the vault holds the difference, and the
receipt exists already or nobody sent lamports to its address. -/
theorem settle_succeeds_iff_receipt_free {rt : Runtime} {L : EscrowLedger} {now : Int64}
    {sysvar : InstructionsSysvar} {a : SettleAccounts} {args : SettleArgs} {s : Session}
    (hL : Reached rt L) (h : SettleReady rt L now sysvar a args s)
    (hfits : args.cumulativeAmount.toNat + s.refundedTotal.toNat ≤ s.depositedTotal.toNat) :
    (∃ r, settleSession rt L now sysvar a args = .ok r) ↔
      s.expiresAt.toInt + 30 < 2 ^ 63 ∧ args.claimExpiresAt.toInt + 30 < 2 ^ 63 ∧
      args.cumulativeAmount.toNat ≤ s.cumulativeSettled.toNat + balance L s.vault ∧
      (s.isSettled = true ∨ (L a.settlementRecord).lamports = 0) := by
  rw [settle_ok_iff (sound_reached hL) h]
  constructor
  · rintro ⟨h₁, h₂, -, h₄, h₅⟩
    exact ⟨h₁, h₂, h₄, h₅⟩
  · rintro ⟨h₁, h₂, h₄, h₅⟩
    exact ⟨h₁, h₂, hfits, h₄, h₅⟩

theorem reached_afterOpen : Reached Bench.runtime Bench.afterOpen :=
  ⟨_, _, Bench.genesis_valid, Bench.run_afterOpen⟩

theorem ready_afterOpen : SettleReady Bench.runtime Bench.afterOpen 2000
    (Bench.claimSysvar 750 2) (Bench.settleAccounts Bench.provider) (Bench.settleArgs 750 2)
    (Bench.sessionWith 0 0) := by
  have h : BenchInOrder Bench.afterOpen Bench.provider (Bench.sessionWith 0 0) 0 := by
    decide +kernel
  exact bench_settleReady h (.inr rfl) (by decide) (by decide) (by decide)

/-- The provider's first settlement of a funded session. -/
theorem settle_succeeds_iff_receipt_free_bench :
    (∃ r, settleSession Bench.runtime Bench.afterOpen 2000 (Bench.claimSysvar 750 2)
      (Bench.settleAccounts Bench.provider) (Bench.settleArgs 750 2) = .ok r) := by
  refine (settle_succeeds_iff_receipt_free reached_afterOpen ready_afterOpen ?_).mpr ?_
  · decide +kernel
  · decide +kernel

/-- The same deployment after an outsider sent lamports to the address of the
receipt that does not exist yet: the rent of an empty account, which is the
least the network lets stand on a fresh address. -/
def giftedLedger : EscrowLedger :=
  sendLamports Bench.afterOpen Bench.outsider Bench.record 890880

theorem reached_giftedLedger : Reached Bench.runtime giftedLedger := by
  refine reached_afterOpen.tail (i := .external) (.external ?_)
  refine external_sendLamports ?_ ?_ _ _
  · exact Bench.signer_of_not_mem (by decide +kernel)
  · decide +kernel

/-- An outsider's gift to that address makes the provider's settlement fail, though the claim is
in order and the deposit covers it. -/
theorem settle_blocked_by_lamports :
    Reached Bench.runtime giftedLedger ∧
    SettleReady Bench.runtime giftedLedger 2000 (Bench.claimSysvar 750 2)
      (Bench.settleAccounts Bench.provider) (Bench.settleArgs 750 2) (Bench.sessionWith 0 0) ∧
    (Bench.settleArgs 750 2).cumulativeAmount.toNat + (Bench.sessionWith 0 0).refundedTotal.toNat ≤
      (Bench.sessionWith 0 0).depositedTotal.toNat ∧
    settleSession Bench.runtime giftedLedger 2000 (Bench.claimSysvar 750 2)
      (Bench.settleAccounts Bench.provider) (Bench.settleArgs 750 2) =
        .error (.system .accountAlreadyInUse) := by
  have hstate : BenchInOrder giftedLedger Bench.provider (Bench.sessionWith 0 0) 0 ∧
      error? (settleSession Bench.runtime giftedLedger 2000 (Bench.claimSysvar 750 2)
        (Bench.settleAccounts Bench.provider) (Bench.settleArgs 750 2)) =
          some (.system .accountAlreadyInUse) := by
    decide +kernel
  obtain ⟨horder, hrefused⟩ := hstate
  exact ⟨reached_giftedLedger,
    bench_settleReady horder (.inr rfl) (by decide) (by decide) (by decide), by decide +kernel,
    error?_eq_some.mp hrefused⟩

/-- After a settlement and any run of further steps, a settlement of a higher
claim on the same session succeeds exactly when no refund was taken, the
claim's own deadline does not overflow, and the vault holds the difference.
Nothing is assumed about who signs the steps in between, nor which of the two
authorised parties settles. -/
theorem later_settle_succeeds_iff_unrefunded {rt : Runtime} {L₀ L₁ L₂ : EscrowLedger}
    {now₁ now : Int64} {sysvar₁ sysvar : InstructionsSysvar} {a₁ a : SettleAccounts}
    {args₁ args : SettleArgs} {ev : Event} {h : History EscrowLedger Label} {s : Session}
    (hL : Reached rt L₀) (hsigner : rt.Signer a₁.settler)
    (hfirst : settleSession rt L₀ now₁ sysvar₁ a₁ args₁ = .ok (L₁, ev))
    (hrun : Run (Step rt) L₁ h L₂) (hready : SettleReady rt L₂ now sysvar a args s)
    (hkey : a.session = a₁.session) :
    (∃ r, settleSession rt L₂ now sysvar a args = .ok r) ↔
      s.refundedTotal = 0 ∧ args.claimExpiresAt.toInt + 30 < 2 ^ 63 ∧
      args.cumulativeAmount.toNat ≤ s.cumulativeSettled.toNat + balance L₂ s.vault := by
  have hstep : Step rt L₀ (.call (.settleSession now₁ sysvar₁ a₁ args₁)) L₁ := by
    have hc := @Step.call rt L₀ (.settleSession now₁ sysvar₁ a₁ args₁) hsigner
    rwa [apply, execute, hfirst] at hc
  have hI : Sound rt L₂ := sound_reached ((hL.tail hstep).run hrun)
  have hs := hI.session _ _ hready.loaded
  obtain ⟨s₀, delta, hset⟩ := settleSession_effect hfirst
  have hchecks := settleChecks_eq_ok.mp hset.checks
  have hsession : sessionAt rt L₁ a₁.session = some (Session.settledAt s₀ args₁.cumulativeAmount) :=
    (Settled.sessionAt hset _).trans (if_pos rfl)
  obtain ⟨s', hs', hevolves⟩ := evolves_run hrun hsession
  rw [← hkey, hready.loaded] at hs'
  obtain rfl := Option.some.inj hs'
  have hexpiry : s.expiresAt = s₀.expiresAt := by
    rw [hevolves.terms]
    rfl
  have hsettled : s.isSettled = true := hevolves.stays rfl
  rw [settle_ok_iff hI hready, hexpiry, ← UInt64.toNat_inj]
  have hinc := hready.increasing
  have hdep := hready.deposited
  have hall := hs.refundsAll
  have hzero : (0 : UInt64).toNat = 0 := rfl
  constructor
  · rintro ⟨-, h₂, h₃, h₄, -⟩
    exact ⟨by omega, h₂, h₄⟩
  · rintro ⟨h₁, h₂, h₄⟩
    exact ⟨hchecks.1.1, h₂, by omega, h₄, .inl hsettled⟩

theorem first_settle_bench : ∃ ev, settleSession Bench.runtime Bench.afterOpen 2000
    (Bench.claimSysvar 100 1) (Bench.settleAccounts Bench.authority) (Bench.settleArgs 100 1) =
      .ok (Bench.afterSettle, ev) := by
  have h : error? (execute Bench.runtime Bench.afterOpen
      (Bench.settleCall Bench.authority 2000 100 1)) = none := by decide +kernel
  obtain ⟨ev, hev⟩ := execute_apply h
  refine ⟨ev, ?_⟩
  simp only [Bench.settleCall, execute] at hev
  rw [hev, Bench.afterSettle, Bench.settleCall]

/-- The provider settles 750 after a settlement at 100. -/
theorem later_settle_succeeds_bench :
    ∃ r, settleSession Bench.runtime Bench.afterSettle 2200 (Bench.claimSysvar 750 2)
      (Bench.settleAccounts Bench.provider) (Bench.settleArgs 750 2) = .ok r := by
  obtain ⟨ev, hfirst⟩ := first_settle_bench
  have hstate : BenchInOrder Bench.afterSettle Bench.provider (Bench.sessionWith 100 0) 100 ∧
      (Bench.settleArgs 750 2).cumulativeAmount.toNat ≤
        (Bench.sessionWith 100 0).cumulativeSettled.toNat +
          balance Bench.afterSettle (Bench.sessionWith 100 0).vault := by
    decide +kernel
  obtain ⟨horder, hfunded⟩ := hstate
  have hready : SettleReady Bench.runtime Bench.afterSettle 2200 (Bench.claimSysvar 750 2)
      (Bench.settleAccounts Bench.provider) (Bench.settleArgs 750 2) (Bench.sessionWith 100 0) :=
    bench_settleReady horder (.inr rfl) (by decide) (by decide) (by decide)
  have hsigner : Bench.runtime.Signer (Bench.settleAccounts Bench.authority).settler :=
    Bench.signer_of_not_mem (by decide +kernel)
  have hiff := later_settle_succeeds_iff_unrefunded reached_afterOpen hsigner hfirst .start hready
    rfl
  exact hiff.mpr ⟨rfl, by decide, hfunded⟩

/-- The authority settles the stale claim for 100, the agent takes the early
refund that settlement unlocked, and the provider's claim for 750 fails. -/
theorem later_settle_lost_to_refund :
    Reached Bench.runtime Bench.afterOpen ∧
    (∃ ev, settleSession Bench.runtime Bench.afterOpen 2000 (Bench.claimSysvar 100 1)
      (Bench.settleAccounts Bench.authority) (Bench.settleArgs 100 1) =
        .ok (Bench.afterSettle, ev)) ∧
    Run (Step Bench.runtime) Bench.afterSettle
      [⟨Bench.afterSettle, .call (Bench.refundCall Bench.agent 2100), Bench.afterRefund⟩]
      Bench.afterRefund ∧
    (Bench.refundCall Bench.agent 2100).signer ≠ Bench.provider ∧
    SettleReady Bench.runtime Bench.afterRefund 2200 (Bench.claimSysvar 750 2)
      (Bench.settleAccounts Bench.provider) (Bench.settleArgs 750 2) (Bench.sessionWith 100 900) ∧
    settleSession Bench.runtime Bench.afterRefund 2200 (Bench.claimSysvar 750 2)
      (Bench.settleAccounts Bench.provider) (Bench.settleArgs 750 2) =
        .error (.program .payoutExceedsDeposit) := by
  have hstate : BenchInOrder Bench.afterRefund Bench.provider (Bench.sessionWith 100 900) 100 ∧
      error? (settleSession Bench.runtime Bench.afterRefund 2200 (Bench.claimSysvar 750 2)
        (Bench.settleAccounts Bench.provider) (Bench.settleArgs 750 2)) =
          some (.program .payoutExceedsDeposit) := by
    decide +kernel
  obtain ⟨horder, hrefused⟩ := hstate
  exact ⟨reached_afterOpen, first_settle_bench,
    Run.start.step (.call (Bench.signer_of_not_mem (by decide +kernel))), by decide +kernel,
    bench_settleReady horder (.inr rfl) (by decide) (by decide) (by decide),
    error?_eq_some.mp hrefused⟩

end AgentPay.SettlementSuccess
