import AgentPay.EscrowConservation

/-!
# Vaults over mints that withhold a fee

`open_session` records the amount it asked the token program to move, and the
vault receives that amount less what the mint withholds. The difference is never
made up by the program, so a vault covers what its session still owes exactly
when other transfers have paid in at least the fee of the deposit. A mint that
withholds nothing always satisfies this.
-/
namespace AgentPay.VaultSolvency
open SolanaRuntime EscrowState ClaimMessage EscrowProgram EscrowEffects EscrowInvariant
open EscrowConservation Fallible Runs

/-- The vault holds what is neither settled nor refunded. -/
def Covered (L : EscrowLedger) (s : Session) : Prop :=
  s.depositedTotal.toNat - s.cumulativeSettled.toNat - s.refundedTotal.toNat ≤ balance L s.vault

/-- No settlement and no refund of the session lacks tokens in the vault. -/
def Payable (rt : Runtime) (L : EscrowLedger) (key : Pubkey) : Prop :=
  (∀ now sysvar a args, a.session = key →
    settleSession rt L now sysvar a args ≠ .error (.token .insufficientFunds)) ∧
  ∀ now a, a.session = key → refundSession rt L now a ≠ .error (.token .insufficientFunds)

section Sessions
variable {rt : Runtime} {L₀ L : EscrowLedger} {h : History EscrowLedger Label} {key : Pubkey}
variable {s : Session}

theorem payable_of_covered (hs : sessionAt rt L key = some s)
    (hbounded : s.cumulativeSettled.toNat + s.refundedTotal.toNat ≤ s.depositedTotal.toNat)
    (hc : Covered L s) : Payable rt L key := by
  have hheld : s.depositedTotal.toNat ≤
      balance L s.vault + s.cumulativeSettled.toNat + s.refundedTotal.toNat := by
    unfold Covered at hc
    omega
  constructor
  · intro now sysvar a args hkey herr
    subst hkey
    have hf := settle_amountFault_only hs hheld herr rfl
    cases hf.1
  · intro now a hkey herr
    subst hkey
    have hf := refund_no_amountFault hs hbounded hheld herr
    cases hf

/-- The books of a run, solved for what the vault is short of. -/
theorem covered_iff (hr : Run (Step rt) L₀ h L) (hg : Genesis rt L₀)
    (hs : sessionAt rt L key = some s) :
    Covered L s ↔ rt.fee s.mint s.depositedTotal.toNat ≤ receivedIn key s.vault h := by
  have hbounded := ((sound_run (sound_genesis hg) hr).session key s hs).bounded
  have hheld := (books_run hr hg hs).held
  unfold Covered
  omega

end Sessions

/-- In every state of every run, a vault covers its session, and nothing the
session owes lacks tokens, exactly when others have paid in what the mint withheld
from the deposit. -/
theorem vault_covers_iff {rt : Runtime} {L₀ L : EscrowLedger} {h : History EscrowLedger Label}
    {key : Pubkey} {s : Session} (hr : Run (Step rt) L₀ h L) (hg : Genesis rt L₀)
    (hs : sessionAt rt L key = some s) :
    Covered L s ∧ Payable rt L key ↔
      rt.fee s.mint s.depositedTotal.toNat ≤ receivedIn key s.vault h := by
  constructor
  · intro hc
    exact (covered_iff hr hg hs).mp hc.1
  · intro hfee
    have hc := (covered_iff hr hg hs).mpr hfee
    have hbounded := ((sound_run (sound_genesis hg) hr).session key s hs).bounded
    exact ⟨hc, payable_of_covered hs hbounded hc⟩

/-- What a transfer leaves of an account. Only the one it takes from has less afterwards. -/
theorem transfer_account {rt : Runtime} {L L' : EscrowLedger}
    {program source mint destination authority : Pubkey} {amount : ℕ}
    (h : transferChecked rt L program source mint destination authority amount = .ok L')
    (k : Pubkey) : L' k = L k ∨ (L k).owner = program ∧ ∃ t n, (L k).data = .token t ∧
      L' k = { L k with data := .token { t with amount := n } } ∧
        (t.owner = authority ∨ t.amount ≤ n) := by
  obtain ⟨src, dst, hsrc, hdst, -, -, howner, -, rfl⟩ := transferChecked_eq_ok.mp h
  obtain ⟨hso, hsd⟩ := tokenAt_eq_some.mp hsrc
  obtain ⟨hdo, hdd⟩ := tokenAt_eq_some.mp hdst
  by_cases he : source = destination
  · exact .inl (by rw [moveTokens, if_pos he])
  · rw [moveTokens_apply he]
    split_ifs with hk hk
    · subst hk
      exact .inr ⟨hdo, dst, _, hdd, rfl, .inr (Nat.le_add_right _ _)⟩
    · subst hk
      exact .inr ⟨hso, src, _, hsd, rfl, .inl howner⟩
    · exact .inl rfl

/-- A transfer that its holder signs is a step of the others. -/
theorem external_transfer {rt : Runtime} {L L' : EscrowLedger}
    {program source mint destination authority : Pubkey} {amount : ℕ}
    (hprogram : program ≠ rt.programId) (hsigner : rt.Signer authority)
    (h : transferChecked rt L program source mint destination authority amount = .ok L') :
    External rt L L' := by
  have hk := transfer_account h
  refine ⟨fun k howned => ?_, fun k hforeign howned => ?_, fun k t ht haddress => ?_,
    fun k haddress hunused => ?_⟩
  · rcases hk k with hsame | ⟨howner, -⟩
    · rw [hsame]
      exact ⟨howned, rfl, le_rfl⟩
    · exact absurd (howner.symm.trans howned) hprogram
  · rcases hk k with hsame | ⟨-, t, n, -, hnew, -⟩
    · rw [hsame] at howned
      exact absurd howned hforeign
    · rw [hnew] at howned
      exact absurd howned hforeign
  · rcases hk k with hsame | ⟨-, t', n, hdata, hnew, hle⟩
    · rw [hsame]
      exact ⟨rfl, t.amount, le_rfl, ht⟩
    · obtain rfl : t = t' := by
        rw [ht] at hdata
        exact AccountData.token.inj hdata
      rw [hnew]
      refine ⟨rfl, n, hle.resolve_left fun hheld => ?_, rfl⟩
      rw [hheld] at haddress
      exact hsigner haddress
  · rcases hk k with hsame | ⟨-, t, n, hdata, -⟩
    · rw [Unused, hsame]
      exact ⟨hunused, le_rfl⟩
    · rw [hunused.2] at hdata
      cases hdata

/-! ### A mint with a transfer fee -/
namespace FeeBench

/-- The deployment of the bench, where transfers lose one per cent. -/
def runtime : Runtime := { Bench.runtime with
  fee := fun _ amount => amount / 100
  fee_le := fun _ amount => Nat.div_le_self amount 100 }

/-- The mint and the token accounts belong to Token-2022. -/
def accounts : List (Pubkey × Account ProgramData) :=
  [(Bench.agent, Bench.wallet), (Bench.provider, Bench.wallet), (Bench.authority, Bench.wallet),
    (Bench.mint, ⟨1461600, token2022ProgramId, .mint 6⟩),
    (Bench.agentToken, ⟨2039280, token2022ProgramId, .token ⟨Bench.mint, Bench.agent, 5000⟩⟩),
    (Bench.providerToken, ⟨2039280, token2022ProgramId, .token ⟨Bench.mint, Bench.provider, 0⟩⟩)]

def genesis : EscrowLedger := ledgerOf accounts

theorem signer_of_not_mem {k : Pubkey} (h : k ∉ Bench.table.map Prod.snd) : runtime.Signer k :=
  Bench.signer_of_not_mem h

theorem genesis_valid : Genesis runtime genesis := by
  refine genesis_ledgerOf ?_ ?_
  · decide +kernel
  · have hm : ∀ e ∈ accounts, e.1 ∉ Bench.table.map Prod.snd := by decide +kernel
    exact fun e he => signer_of_not_mem (hm e he)

def openCall : Call := .openSession 1000
  ⟨Bench.agent, Bench.provider, Bench.mint, Bench.session, Bench.vault, Bench.agentToken,
    token2022ProgramId⟩
  ⟨Bench.sessionId, 1000, 5000, Bench.authority⟩

def afterOpen : EscrowLedger := apply runtime genesis openCall

def lateRefund : Call := .refundSession 5031
  ⟨Bench.agent, Bench.session, Bench.vault, Bench.agentToken, Bench.mint, token2022ProgramId⟩

/-- The agent sends the 10 after that were withheld. -/
def topUp : Except TokenError EscrowLedger := transferChecked runtime afterOpen token2022ProgramId
  Bench.agentToken Bench.mint Bench.vault Bench.agent 10

def toppedUp : EscrowLedger := topUp.toOption.getD afterOpen

def history : History EscrowLedger Label :=
  [⟨afterOpen, .external, toppedUp⟩, ⟨genesis, .call openCall, afterOpen⟩]

theorem run_afterOpen : Run (Step runtime) genesis [⟨genesis, .call openCall, afterOpen⟩]
    afterOpen :=
  Run.start.step (.call (signer_of_not_mem (by decide +kernel)))

theorem topUp_eq : topUp = .ok toppedUp := by
  have hok : topUp.isOk = true := by decide +kernel
  unfold toppedUp
  cases h : topUp with
  | error e =>
    rw [h] at hok
    cases hok
  | ok L => rfl

theorem run_toppedUp : Run (Step runtime) genesis history toppedUp :=
  run_afterOpen.step (.external (external_transfer (by decide +kernel)
    (signer_of_not_mem (by decide +kernel)) topUp_eq))

end FeeBench

/-- The mint withheld 10 of the deposit, and others have paid in 10. -/
theorem vault_covers_topped_up :
    sessionAt FeeBench.runtime FeeBench.toppedUp Bench.session = some (Bench.sessionWith 0 0) ∧
      FeeBench.runtime.fee Bench.mint 1000 = 10 ∧
      Covered FeeBench.toppedUp (Bench.sessionWith 0 0) ∧
        Payable FeeBench.runtime FeeBench.toppedUp Bench.session := by
  have hs : sessionAt FeeBench.runtime FeeBench.toppedUp Bench.session =
      some (Bench.sessionWith 0 0) := by decide +kernel
  have hfee : FeeBench.runtime.fee (Bench.sessionWith 0 0).mint
      (Bench.sessionWith 0 0).depositedTotal.toNat ≤
        receivedIn Bench.session (Bench.sessionWith 0 0).vault FeeBench.history := by
    decide +kernel
  exact ⟨hs, rfl, (vault_covers_iff FeeBench.run_toppedUp FeeBench.genesis_valid hs).mpr hfee⟩

/-- A deposit of 1000 leaves 990 in the vault, and the refund of the whole deposit
past the deadline fails for lack of tokens. -/
theorem fee_leaves_vault_short :
    Genesis FeeBench.runtime FeeBench.genesis ∧
      Run (Step FeeBench.runtime) FeeBench.genesis
        [⟨FeeBench.genesis, .call FeeBench.openCall, FeeBench.afterOpen⟩] FeeBench.afterOpen ∧
      sessionAt FeeBench.runtime FeeBench.afterOpen Bench.session =
        some (Bench.sessionWith 0 0) ∧
      balance FeeBench.afterOpen Bench.vault = 990 ∧
      ¬Covered FeeBench.afterOpen (Bench.sessionWith 0 0) ∧
      error? (execute FeeBench.runtime FeeBench.afterOpen FeeBench.lateRefund) =
        some (.token .insufficientFunds) := by
  have hbalance : balance FeeBench.afterOpen Bench.vault = 990 := by decide +kernel
  refine ⟨FeeBench.genesis_valid, FeeBench.run_afterOpen, by decide +kernel, hbalance, ?_,
    by decide +kernel⟩
  unfold Covered
  have hvault : (Bench.sessionWith 0 0).vault = Bench.vault := rfl
  rw [hvault, hbalance]
  decide

end AgentPay.VaultSolvency
