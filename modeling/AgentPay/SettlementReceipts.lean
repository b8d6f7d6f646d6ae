import AgentPay.EscrowRefunds

/-!
# The receipt of the last settlement

The record at a session's settlement address is created by hand on the first
settlement and overwritten by every later one. Over a whole run it is the receipt
of the newest settlement of its session that succeeded, and there is none before
the first. Nothing else writes to that address: not a refund, not another session,
not anybody outside the program.
-/
namespace AgentPay.SettlementReceipts
open SolanaRuntime EscrowState ClaimMessage EscrowProgram EscrowEffects EscrowInvariant
open EscrowConservation EscrowRefunds Fallible Runs

/-- The step is a settlement of the session that succeeded. -/
def Settlement (rt : Runtime) (key : Pubkey) (t : Transition EscrowLedger Label) : Prop :=
  settles key t.label = true ∧ Succeeded rt t

/-- The clock and the arguments of the newest settlement of the session that
succeeded. -/
def lastSettlement (rt : Runtime) (key : Pubkey) :
    History EscrowLedger Label → Option (Int64 × SettleArgs)
  | [] => none
  | t::h =>
    match t.label with
    | .call (.settleSession now sysvar a args) =>
      if a.session = key ∧ error? (settleSession rt t.before now sysvar a args) = none then
        some (now, args)
      else lastSettlement rt key h
    | _ => lastSettlement rt key h

section Address
variable {rt : Runtime} {L L' : EscrowLedger} {key k : Pubkey} {b : UInt8} {i : Label}

/-- The settlement address of a key holds a receipt or nothing. -/
theorem receipt_place (hI : Sound rt L)
    (hf : rt.findProgramAddress (settlementSeeds key) = some (k, b)) :
    Unused L k ∨ ∃ r, recordAt rt L k = some r := by
  rcases hs : sessionAt rt L key with _ | s
  · exact .inl (hI.dormant key hs b k (.inr (rt.derive_of_find hf)))
  · have hr := (hI.session key s hs).receipt k b hf
    split_ifs at hr
    · obtain ⟨r, hr, -⟩ := hr
      exact .inr ⟨r, hr⟩
    · exact .inl hr

theorem receipt_no_token (hI : Sound rt L)
    (hf : rt.findProgramAddress (settlementSeeds key) = some (k, b)) :
    (L k).data.token? = none := by
  rcases receipt_place hI hf with hu | ⟨r, hr⟩
  · rw [hu.2]
    rfl
  · rw [(recordAt_eq_some.mp hr).2]
    rfl

/-- Only a settlement of the session itself writes to its settlement address. -/
theorem receipt_kept (hI : Sound rt L)
    (hf : rt.findProgramAddress (settlementSeeds key) = some (k, b)) (ho : Outcome rt L i L')
    (hother : ∀ now sysvar a args s delta, i = .call (.settleSession now sysvar a args) →
      Settled rt L L' now sysvar a args s delta → a.session ≠ key) : Kept L L' k := by
  have hd := rt.derive_of_find hf
  have hdata := receipt_no_token hI hf
  cases ho with
  | external hx =>
    rcases receipt_place hI hf with hu | ⟨r, hr⟩
    · have hu' := External.unusedKept hx (rt.programAddress_of_derive hd) hu
      exact ⟨hu'.1.trans hu.1.symm, hu'.2.trans hu.2.symm⟩
    · have hown := (recordAt_eq_some.mp hr).1
      obtain ⟨hown', hdata', -⟩ := hx.owned k hown
      exact ⟨hown'.trans hown.symm, hdata'⟩
  | rejected _ => exact ⟨rfl, rfl⟩
  | opened _ h =>
    exact Opened.kept h (session_ne_record h.derived hd).symm
      (vault_ne_record h.vaultDerived hd).symm hdata
  | settled h =>
    obtain ⟨bump, hfind, -⟩ := h.receiptWritten
    refine Settled.kept h (session_ne_record h.derived hd).symm ?_ hdata
    intro hk
    subst hk
    exact hother _ _ _ _ _ _ rfl h
      (settlementSeeds_injective (rt.derive_of_find hfind) hd)
  | refunded h => exact Refunded.kept h (session_ne_record h.derived hd).symm hdata

end Address

section Histories
variable {rt : Runtime} {L₀ L L' : EscrowLedger} {h : History EscrowLedger Label} {key k : Pubkey}
variable {b : UInt8} {i : Label}

/-- A settlement that succeeded is the last one, and its receipt is written. -/
theorem receipt_of_settlement (hs : Step rt L i L') (hk : Settlement rt key ⟨L, i, L'⟩)
    (hf : rt.findProgramAddress (settlementSeeds key) = some (k, b)) :
    ∃ now args, lastSettlement rt key (⟨L, i, L'⟩ :: h) = some (now, args) ∧
      recordAt rt L' k = some (receipt rt key b now args) := by
  rcases hk with ⟨hk, c, r, hc, hok⟩
  simp only at hk hc hok
  subst hc
  cases hs
  cases c with
  | openSession now a args => cases hk
  | refundSession now a => cases hk
  | settleSession now sysvar a args =>
    have hkey : a.session = key := of_decide_eq_true hk
    subst hkey
    have hok' : settleSession rt L now sysvar a args = .ok r := hok
    refine ⟨now, args, ?_, ?_⟩
    · exact if_pos ⟨rfl, error?_eq_none.mpr ⟨r, hok'⟩⟩
    · rcases settleSession_effect hok' with ⟨s, delta, he⟩
      obtain ⟨bump, hfind, hwritten⟩ := he.receiptWritten
      rw [hf, Option.some.injEq, Prod.mk.injEq] at hfind
      obtain ⟨rfl, rfl⟩ := hfind
      have hafter : apply rt L (.settleSession now sysvar a args) = r.1 := by
        simp only [apply, hok]
      rw [hafter]
      exact recordAt_eq_some.mpr hwritten

/-- Any other step is not counted, and leaves the settlement address alone. -/
theorem receipt_of_other (hI : Sound rt L) (hs : Step rt L i L')
    (hk : ¬Settlement rt key ⟨L, i, L'⟩)
    (hf : rt.findProgramAddress (settlementSeeds key) = some (k, b)) :
    lastSettlement rt key (⟨L, i, L'⟩ :: h) = lastSettlement rt key h ∧ Kept L L' k := by
  constructor
  · rw [lastSettlement]
    split
    · rename_i now sysvar a args hl
      simp only at hl
      rw [if_neg]
      rintro ⟨hkey, hnone⟩
      obtain ⟨r, hr⟩ := error?_eq_none.mp hnone
      exact hk ⟨by simp [settles, hl, hkey], _, r, hl, hr⟩
    · rfl
  · refine receipt_kept hI hf (step_outcome hs) ?_
    intro now sysvar a args s delta hl he hkey
    subst hl
    by_cases hok : Succeeded rt ⟨L, .call (.settleSession now sysvar a args), L'⟩
    · exact hk ⟨by simp [settles, hkey], hok⟩
    · have hsame := unchanged_of_failed hs hok
      subst hsame
      have hloaded := he.loaded
      have hwritten := sessionAt_eq_some.mpr he.sessionWritten
      rw [hloaded, Option.some.injEq] at hwritten
      have hlt := (settleChecks_eq_ok.mp he.checks).2.2.1
      have hamount := congrArg Session.cumulativeSettled hwritten
      simp only [Session.settledAt] at hamount
      rw [hamount] at hlt
      exact absurd hlt (lt_irrefl _)

/-- Over a run, the record at the settlement address is the receipt of the last
settlement. -/
theorem recordAt_run (hr : Run (Step rt) L₀ h L) (hg : Genesis rt L₀)
    (hf : rt.findProgramAddress (settlementSeeds key) = some (k, b)) :
    recordAt rt L k = (lastSettlement rt key h).map fun p => receipt rt key b p.1 p.2 := by
  induction hr with
  | start =>
    unfold recordAt
    rw [if_neg (hg.owned k)]
    rfl
  | @step h L L' i hr hs ih =>
    have hI : Sound rt L := sound_run (sound_genesis hg) hr
    by_cases hk : Settlement rt key ⟨L, i, L'⟩
    · obtain ⟨now, args, hlast, hrec⟩ := receipt_of_settlement (h := h) hs hk hf
      rw [hlast, hrec]
      rfl
    · obtain ⟨hlast, hkept⟩ := receipt_of_other (h := h) hI hs hk hf
      rw [hlast, Kept.recordAt hkept]
      exact ih

end Histories

/-- What a run leaves at the settlement address `k` of a session. -/
structure ReceiptOf (rt : Runtime) (h : History EscrowLedger Label) (L : EscrowLedger)
    (key : Pubkey) (s : Session) (k : Pubkey) (bump : UInt8) : Prop where
  exists_iff : (L k).owner = rt.programId ↔ s.isSettled = true
  settled_iff : s.isSettled = true ↔ 0 < s.cumulativeSettled.toNat
  agrees : s.isSettled = true → ∃ now args, lastSettlement rt key h = some (now, args) ∧
    recordAt rt L k = some
      { session := key
        claimHash := rt.sha256
          (buildClaimMessage key args.cumulativeAmount args.nonce args.claimExpiresAt)
        merkleRoot := args.merkleRoot
        settledAt := now
        settledAmount := s.cumulativeSettled
        bump := bump }
  frame : ∀ t ∈ h, ¬Settlement rt key t → Kept t.before t.after k

/-- The receipt agrees with the session in every state of every run. Its address is the one the
runtime finds for the session's seeds, and nobody but the program writes there. -/
theorem receipt_agrees {rt : Runtime} {L₀ L : EscrowLedger} {h : History EscrowLedger Label}
    {key k : Pubkey} {s : Session} {bump : UInt8} (hr : Run (Step rt) L₀ h L)
    (hg : Genesis rt L₀) (hs : sessionAt rt L key = some s)
    (hf : rt.findProgramAddress (settlementSeeds key) = some (k, bump)) :
    ReceiptOf rt h L key s k bump := by
  have hsound := (sound_run (sound_genesis hg) hr).session key s hs
  have hplace := hsound.receipt k bump hf
  constructor
  case exists_iff =>
    split_ifs at hplace with hset
    · obtain ⟨r, hrec, -⟩ := hplace
      simp only [hset, (recordAt_eq_some.mp hrec).1]
    · rw [hplace.1]
      simp only [hset, Bool.false_eq_true, iff_false]
      exact rt.programId_ne_system.symm
  case settled_iff => exact hsound.settledIff
  case agrees =>
    intro hset
    rw [if_pos hset] at hplace
    obtain ⟨r, hrec, -, hamount⟩ := hplace
    have hrun := recordAt_run hr hg hf
    rw [hrec] at hrun
    rcases hlast : lastSettlement rt key h with _ | ⟨now, args⟩
    · rw [hlast] at hrun
      cases hrun
    · rw [hlast, Option.map_some, Option.some.injEq] at hrun
      refine ⟨now, args, rfl, ?_⟩
      rw [hrec, ← hamount, hrun]
      rfl
  case frame =>
    intro t ht hk
    obtain ⟨later, earlier, rfl⟩ := List.append_of_mem ht
    obtain ⟨hrun, hstep⟩ := hr.split rfl
    exact (receipt_of_other (h := earlier) (sound_run (sound_genesis hg) hrun) hstep hk hf).2

/-- After 100 of 1000 were settled and the rest refunded, the receipt is that of
the settlement. -/
theorem receipt_agrees_bench :
    lastSettlement Bench.runtime Bench.session Bench.history =
        some (2000, Bench.settleArgs 100 1) ∧
      ReceiptOf Bench.runtime Bench.history Bench.afterRefund Bench.session
        (Bench.sessionWith 100 900) Bench.record 255 := by
  have hs : sessionAt Bench.runtime Bench.afterRefund Bench.session =
      some (Bench.sessionWith 100 900) := by decide +kernel
  have hf : Bench.runtime.findProgramAddress (settlementSeeds Bench.session) =
      some (Bench.record, 255) := by decide +kernel
  exact ⟨by decide +kernel, receipt_agrees Bench.run_afterRefund Bench.genesis_valid hs hf⟩

end AgentPay.SettlementReceipts
