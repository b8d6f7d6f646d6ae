import AgentPay.EscrowRefunds
import AgentPay.SettlementAgreement

/-!
# Who is paid, by whose order, and on whose signature

The program cannot verify a signature itself. It reads the precompile
instruction before its own and checks what that instruction asked for; that the
answer was yes follows only because a transaction with a rejected precompile
has no effect. So the runs here are runs of transactions: `precompileAccepts` is
the native Ed25519 program, with any number of signatures and with offsets into
any instruction, and `verify` stands for the signature scheme itself.
-/
namespace AgentPay.PayoutAuthority
open SolanaRuntime EscrowState ClaimMessage EscrowProgram EscrowEffects EscrowInvariant
open EscrowConservation EscrowRefunds Fallible Runs

/-- A signature scheme: key, message and signature, as bytes. -/
abbrev Scheme := List UInt8 → List UInt8 → List UInt8 → Bool

section Precompile
variable (verify : Scheme) (tx : List Instruction)

/-- The bytes an offset of the precompile refers to, in its own data or in that
of another instruction of the transaction. -/
def region (data : List UInt8) (index offset size : ℕ) : Option (List UInt8) := do
  let source ← if index = u16Max then some data else tx[index]?.map Instruction.data
  (slice source offset (offset + size)).toOption

/-- The signature whose fourteen bytes of offsets start at `start`. -/
def signatureVerifies (data : List UInt8) (start : ℕ) : Option Bool := do
  let signatureOffset ← (readU16 data start).toOption
  let signatureIndex ← (readU16 data (start + 2)).toOption
  let publicKeyOffset ← (readU16 data (start + 4)).toOption
  let publicKeyIndex ← (readU16 data (start + 6)).toOption
  let messageOffset ← (readU16 data (start + 8)).toOption
  let messageSize ← (readU16 data (start + 10)).toOption
  let messageIndex ← (readU16 data (start + 12)).toOption
  let signature ← region tx data signatureIndex signatureOffset 64
  let publicKey ← region tx data publicKeyIndex publicKeyOffset 32
  let message ← region tx data messageIndex messageOffset messageSize
  some (verify publicKey message signature)

/-- The native Ed25519 program: every declared signature verifies. -/
def precompileAccepts (data : List UInt8) : Bool :=
  match data[0]? with
  | none => false
  | some count => decide (2 ≤ data.length ∧ (count = 0 → data.length = 2) ∧
      2 + 14 * count.toNat ≤ data.length) &&
    (List.range count.toNat).all fun i => signatureVerifies verify tx data (2 + 14 * i) = some true

end Precompile

/-- A transaction, with the one call of the program that is looked at. -/
structure Transaction where
  instructions : List Instruction
  call : Call

/-- The program reads the instructions of its own transaction. -/
def Transaction.WellFormed (tx : Transaction) : Prop :=
  ∀ now sysvar a args, tx.call = .settleSession now sysvar a args →
    sysvar.instructions = tx.instructions

/-- Every precompile instruction of the transaction is accepted. -/
def Transaction.accepted (verify : Scheme) (tx : Transaction) : Bool :=
  tx.instructions.all fun ix =>
    ix.programId ≠ ed25519ProgramId || precompileAccepts verify tx.instructions ix.data

/-- A transaction with a rejected precompile has no effect. -/
def transact (verify : Scheme) (rt : Runtime) (L : EscrowLedger) (tx : Transaction) :
    EscrowLedger :=
  if tx.accepted verify then apply rt L tx.call else L

inductive TransactionLabel where
  | send (tx : Transaction)
  | external

inductive TransactionStep (verify : Scheme) (rt : Runtime) :
    EscrowLedger → TransactionLabel → EscrowLedger → Prop
  | send {L : EscrowLedger} {tx : Transaction} : rt.Signer tx.call.signer → tx.WellFormed →
      TransactionStep verify rt L (.send tx) (transact verify rt L tx)
  | external {L L' : EscrowLedger} : External rt L L' → TransactionStep verify rt L .external L'

/-- In an accepted transaction each signature instruction is accepted. -/
theorem Transaction.accepts {verify : Scheme} {tx : Transaction} {sysvar : InstructionsSysvar}
    (h : tx.accepted verify = true) (hs : sysvar.instructions = tx.instructions) {ix : Instruction}
    (hix : ix ∈ sysvar.instructions) (hprogram : ix.programId = ed25519ProgramId) :
    precompileAccepts verify sysvar.instructions ix.data = true := by
  rw [hs] at hix ⊢
  have hall := List.all_eq_true.mp h ix hix
  simpa [hprogram] using hall

section Signed
variable {verify : Scheme} {sysvar : InstructionsSysvar} {signer : Pubkey} {message : List UInt8}

/-- What the program's introspection found in the instruction before it. -/
structure Introspected (sysvar : InstructionsSysvar) (signer : Pubkey) (message : List UInt8)
    (ix : Instruction) (offset : ℕ) : Prop where
  mem : ix ∈ sysvar.instructions
  program : ix.programId = ed25519ProgramId
  one : ix.data[0]? = some 1
  signatureAt : readU16 ix.data 2 = .ok offset ∧ readU16 ix.data 4 = .ok u16Max
  keyAt : ∃ k, readU16 ix.data 6 = .ok k ∧ readU16 ix.data 8 = .ok u16Max ∧
    slice ix.data k (k + 32) = .ok signer.toList
  messageAt : ∃ m, readU16 ix.data 10 = .ok m ∧ readU16 ix.data 12 = .ok message.length ∧
    readU16 ix.data 14 = .ok u16Max ∧ slice ix.data m (m + message.length) = .ok message

theorem verifyEd25519Claim_introspected (h : verifyEd25519Claim sysvar signer message = .ok ()) :
    ∃ ix offset, sysvar.instructions[sysvar.currentIndex - 1]? = some ix ∧
      Introspected sysvar signer message ix offset := by
  simp only [verifyEd25519Claim, bind_eq_ok, require_eq_ok, okOr_eq_ok, exists_and_left,
    exists_const] at h
  rcases h with ⟨-, ix, hix, hprogram, -, count, hcount, hone, padding, -, -, offset, h₂, i₁, h₄,
    k, h₆, i₂, h₈, m, h₁₀, size, h₁₂, i₃, h₁₄, hmax, hsize, -, key, hk, hkey, text, hm, htext⟩
  rcases hmax with ⟨rfl, rfl, rfl⟩
  subst hsize hkey htext hone
  simp only [byteAt, okOr_eq_ok] at hcount
  exact ⟨ix, offset, hix, List.mem_of_getElem? hix, hprogram, hcount, ⟨h₂, h₄⟩, ⟨k, h₆, h₈, hk⟩,
    ⟨m, h₁₀, h₁₂, h₁₄, hm⟩⟩

theorem region_own {tx : List Instruction} {data : List UInt8} {offset size : ℕ}
    {bytes : List UInt8} :
    region tx data u16Max offset size = some bytes ↔
      slice data offset (offset + size) = .ok bytes := by
  simp [region, toOption_eq_some]

/-- The precompile was asked for exactly the signature the program looked for,
so its acceptance is that signature's. -/
theorem Introspected.verified {ix : Instruction} {offset : ℕ}
    (h : Introspected sysvar signer message ix offset)
    (hacc : precompileAccepts verify sysvar.instructions ix.data = true) :
    ∃ signature, slice ix.data offset (offset + 64) = .ok signature ∧
      verify signer.toList message signature = true := by
  rcases h.keyAt with ⟨k, h₆, h₈, hk⟩
  rcases h.messageAt with ⟨m, h₁₀, h₁₂, h₁₄, hm⟩
  unfold precompileAccepts at hacc
  rw [h.one] at hacc
  simp only [Bool.and_eq_true, List.all_eq_true, List.mem_range, decide_eq_true_eq] at hacc
  have hfirst := hacc.2 0 Nat.zero_lt_one
  simp only [signatureVerifies, Option.bind_eq_bind, Option.bind_eq_some_iff, toOption_eq_some,
    Option.some.injEq] at hfirst
  rcases hfirst with ⟨o, ho, i₁, hi₁, k', hk', i₂, hi₂, m', hm', size, hsize, i₃, hi₃, signature,
    hsig, key, hkey, text, htext, hverify⟩
  have e₁ : o = offset := Except.ok.inj (ho.symm.trans h.signatureAt.1)
  have e₂ : i₁ = u16Max := Except.ok.inj (hi₁.symm.trans h.signatureAt.2)
  have e₃ : k' = k := Except.ok.inj (hk'.symm.trans h₆)
  have e₄ : i₂ = u16Max := Except.ok.inj (hi₂.symm.trans h₈)
  have e₅ : m' = m := Except.ok.inj (hm'.symm.trans h₁₀)
  have e₆ : size = message.length := Except.ok.inj (hsize.symm.trans h₁₂)
  have e₇ : i₃ = u16Max := Except.ok.inj (hi₃.symm.trans h₁₄)
  rw [e₁, e₂, region_own] at hsig
  rw [e₃, e₄, region_own] at hkey
  rw [e₅, e₆, e₇, region_own] at htext
  have hkeys : key = signer.toList := Except.ok.inj (hkey.symm.trans hk)
  have htexts : text = message := Except.ok.inj (htext.symm.trans hm)
  rw [hkeys, htexts] at hverify
  exact ⟨signature, hsig, hverify⟩

end Signed

/-! ### Runs of transactions are runs of the program -/

/-- A transaction without effect is seen by the program as no call at all. -/
def project (verify : Scheme) (t : Transition EscrowLedger TransactionLabel) :
    Transition EscrowLedger Label :=
  match t.label with
  | .send tx => ⟨t.before, if tx.accepted verify then .call tx.call else .external, t.after⟩
  | .external => ⟨t.before, .external, t.after⟩

section Projection
variable {verify : Scheme} {rt : Runtime} {L₀ L L' : EscrowLedger} {key : Pubkey}
variable {h : History EscrowLedger TransactionLabel}

theorem External.refl (rt : Runtime) (L : EscrowLedger) : External rt L L :=
  ⟨fun _ ho => ⟨ho, rfl, le_rfl⟩, fun _ hn ho => absurd ho hn,
    fun _ t ht _ => ⟨rfl, t.amount, le_rfl, ht⟩, fun _ _ hu => ⟨hu, le_rfl⟩⟩

theorem project_step {l : TransactionLabel} (hs : TransactionStep verify rt L l L') :
    Step rt L (project verify ⟨L, l, L'⟩).label L' := by
  cases hs with
  | @send tx hsig hwf =>
    simp only [project, transact]
    split_ifs
    · exact .call hsig
    · exact .external (External.refl rt L)
  | external hx => exact .external hx

theorem project_before (t : Transition EscrowLedger TransactionLabel) :
    (project verify t).before = t.before := by
  unfold project
  split <;> rfl

theorem project_after (t : Transition EscrowLedger TransactionLabel) :
    (project verify t).after = t.after := by
  unfold project
  split <;> rfl

theorem project_run (hr : Run (TransactionStep verify rt) L₀ h L) :
    Run (Step rt) L₀ (h.map (project verify)) L := by
  induction hr with
  | start => exact .start
  | @step h L L' l hr hs ih =>
    have hb := @project_before verify ⟨L, l, L'⟩
    have ha := @project_after verify ⟨L, l, L'⟩
    have hstep := ih.step (project_step hs)
    rw [List.map_cons]
    generalize project verify ⟨L, l, L'⟩ = t at hb ha hstep
    cases t
    simp only at hb ha hstep
    subst hb ha
    exact hstep

end Projection

/-- The terms a session was opened with. -/
structure Terms (a₀ : OpenAccounts) (args₀ : OpenArgs) (s : Session) : Prop where
  agent : s.agent = a₀.agent
  provider : s.provider = a₀.provider
  settlementAuthority : s.settlementAuthority = args₀.settlementAuthority
  mint : s.mint = a₀.mint
  vault : s.vault = a₀.vault
  depositedTotal : s.depositedTotal = args₀.depositAmount
  expiresAt : s.expiresAt = args₀.expiresAt
  sessionId : s.sessionId = args₀.sessionId

/-- The step was a transaction that opened the session. -/
def OpenedBy (verify : Scheme) (rt : Runtime) (key : Pubkey) (a₀ : OpenAccounts)
    (args₀ : OpenArgs) (t : Transition EscrowLedger TransactionLabel) : Prop :=
  ∃ tx now r, t.label = .send tx ∧ tx.accepted verify = true ∧
    tx.call = .openSession now a₀ args₀ ∧ a₀.session = key ∧
    openSession rt t.before now a₀ args₀ = .ok r

section Openings
variable {verify : Scheme} {rt : Runtime} {L₀ L L' : EscrowLedger} {key : Pubkey}
variable {h : History EscrowLedger TransactionLabel} {s s' : Session}
variable {a₀ : OpenAccounts} {args₀ : OpenArgs}

theorem Opened.terms {now : Int64} (h : Opened rt L L' now a₀ args₀ s) : Terms a₀ args₀ s := by
  rw [h.opened]
  exact ⟨rfl, rfl, rfl, rfl, rfl, rfl, rfl, rfl⟩

theorem Terms.evolves (ht : Terms a₀ args₀ s) (he : Evolves s s') : Terms a₀ args₀ s' := by
  rw [he.terms]
  exact ⟨ht.agent, ht.provider, ht.settlementAuthority, ht.mint, ht.vault, ht.depositedTotal,
    ht.expiresAt, ht.sessionId⟩

/-- The terms of a session never change after its opening. -/
theorem terms_run (hr : Run (TransactionStep verify rt) L₀ h L)
    {t : Transition EscrowLedger TransactionLabel} (ht : t ∈ h)
    (ho : OpenedBy verify rt key a₀ args₀ t) :
    ∃ s, sessionAt rt L key = some s ∧ Terms a₀ args₀ s := by
  induction hr with
  | start => cases ht
  | @step h L L' l hr hs ih =>
    rcases List.mem_cons.mp ht with rfl | ht
    · rcases ho with ⟨tx, now, r, hl, hacc, hcall, hkey, hok⟩
      simp only at hl hok
      subst hl
      cases hs
      rcases openSession_effect hok with ⟨s, he⟩
      have hafter : transact verify rt L tx = r.1 := by
        simp only [transact, hacc, ↓reduceIte, apply, hcall, execute, hok]
      refine ⟨s, ?_, Opened.terms he⟩
      rw [hafter, Opened.sessionAt he, if_pos hkey.symm]
    · rcases ih ht with ⟨s, hs₀, hterms⟩
      rcases evolves_outcome (step_outcome (project_step hs)) hs₀ with ⟨s', hs', he⟩
      exact ⟨s', hs', hterms.evolves he⟩

/-- Every session was opened by some transaction of the run. -/
theorem opening_of_session (hr : Run (TransactionStep verify rt) L₀ h L) (hg : Genesis rt L₀)
    (hs : sessionAt rt L key = some s) :
    ∃ t ∈ h, ∃ a₀ args₀, OpenedBy verify rt key a₀ args₀ t := by
  induction hr generalizing s with
  | start => exact absurd (sessionAt_eq_some.mp hs).1 (hg.owned key)
  | @step h L L' l hr hstep ih =>
    rcases hb : sessionAt rt L key with _ | s₀
    · have hp := project_step hstep
      rcases opened_of_new (step_outcome hp) hb hs with ⟨now, a, args, hlabel, hkey, -⟩
      have hsucc : Succeeded rt ⟨L, .call (.openSession now a args), L'⟩ := by
        by_contra hn
        rw [hlabel] at hp
        rw [unchanged_of_failed hp hn, hb] at hs
        cases hs
      rcases hsucc with ⟨c, r, hc, hok⟩
      simp only [Label.call.injEq] at hc
      subst hc
      refine ⟨_, List.mem_cons_self, a, args, ?_⟩
      cases l with
      | external => cases hlabel
      | send tx =>
        simp only [project] at hlabel
        split_ifs at hlabel with hacc
        exact ⟨tx, now, r, rfl, hacc, Label.call.inj hlabel, hkey, hok⟩
    · rcases ih hb with ⟨t, ht, hrest⟩
      exact ⟨t, List.mem_cons_of_mem _ ht, hrest⟩

end Openings

/-- A settlement that went through on a session opened with these terms. -/
structure Payout (verify : Scheme) (rt : Runtime) (L L' : EscrowLedger)
    (sysvar : InstructionsSysvar) (a : SettleAccounts) (args : SettleArgs) (a₀ : OpenAccounts)
    (args₀ : OpenArgs) : Prop where
  payee : ∃ t : TokenAccount, (L a.providerTokenAccount).data = .token t ∧
    t.owner = a₀.provider ∧ t.mint = a₀.mint
  moved : ∃ delta, balance L' a₀.vault + delta = balance L a₀.vault ∧
    balance L' a.providerTokenAccount =
      balance L a.providerTokenAccount + (delta - rt.fee a₀.mint delta) ∧
    ∀ k, k ≠ a₀.vault → k ≠ a.providerTokenAccount → balance L' k = balance L k
  settler : a.settler = args₀.settlementAuthority ∨ a.settler = a₀.provider
  settled : ∃ s, sessionAt rt L' a.session = some s ∧
    s.cumulativeSettled = args.cumulativeAmount
  signed : ∃ ix ∈ sysvar.instructions, ∃ offset signature, ix.programId = ed25519ProgramId ∧
    slice ix.data offset (offset + 64) = .ok signature ∧
    verify a₀.agent.toList (buildClaimMessage a.session args.cumulativeAmount args.nonce
      args.claimExpiresAt) signature = true

section Payouts
variable {verify : Scheme} {rt : Runtime} {L L' : EscrowLedger} {now : Int64}
variable {sysvar : InstructionsSysvar} {a : SettleAccounts} {args : SettleArgs} {s : Session}
variable {delta : UInt64} {a₀ : OpenAccounts} {args₀ : OpenArgs}

theorem balance_of_program {k : Pubkey} {d : ProgramData} (h : (L k).data = .program d) :
    balance L k = 0 := by
  simp [balance, h, AccountData.token?]

/-- A settlement changes the balances of its vault and its payee only. -/
theorem Settled.balance_other (h : Settled rt L L' now sysvar a args s delta) {k : Pubkey}
    (hv : k ≠ a.vault) (hp : k ≠ a.providerTokenAccount) : balance L' k = balance L k := by
  by_cases hs : k = a.session
  · subst hs
    rw [balance_of_program h.sessionWritten.2,
      balance_of_program (sessionAt_eq_some.mp h.loaded).2]
  · by_cases hr : k = a.settlementRecord
    · subst hr
      rcases h.receiptWritten with ⟨_, -, -, hd⟩
      rw [balance_of_program hd]
      rcases h.ready with hu | ⟨r, hrec, -⟩
      · exact (balance_unused hu).symm
      · exact (balance_of_program (recordAt_eq_some.mp hrec).2).symm
    · have hk := h.frame k hs hr hv hp
      simp only [balance, hk.2]

theorem Settled.payout (h : Settled rt L L' now sysvar a args s delta)
    (ht : Terms a₀ args₀ s) (hacc : ∀ ix ∈ sysvar.instructions, ix.programId = ed25519ProgramId →
      precompileAccepts verify sysvar.instructions ix.data = true) :
    Payout verify rt L L' sysvar a args a₀ args₀ := by
  have hvault : a₀.vault = a.vault := ht.vault.symm.trans h.vault
  rcases h.payeeCredited with ⟨t, htoken, hmint, howner, -, htoken'⟩
  rcases h.vaultDebited with ⟨v, hv, -, -, hle, -, hv'⟩
  constructor
  case payee => exact ⟨t, htoken, howner.trans ht.provider, hmint.trans ht.mint⟩
  case moved =>
    refine ⟨delta.toNat, ?_, ?_, ?_⟩
    · rw [hvault, balance_of_token hv', balance_of_token hv]
      exact Nat.sub_add_cancel hle
    · rw [balance_of_token htoken', balance_of_token htoken, ← ht.mint]
      rfl
    · intro k hk hp
      rw [hvault] at hk
      exact Settled.balance_other h hk hp
  case settler =>
    rw [← ht.settlementAuthority, ← ht.provider]
    exact h.settler
  case settled =>
    exact ⟨_, (Settled.sessionAt h _).trans (if_pos rfl), rfl⟩
  case signed =>
    rcases verifyEd25519Claim_introspected h.signed with ⟨ix, offset, -, hi⟩
    rcases hi.verified (hacc ix hi.mem hi.program) with ⟨signature, hslice, hverify⟩
    rw [ht.agent] at hverify
    exact ⟨ix, hi.mem, offset, signature, hi.program, hslice, hverify⟩

end Payouts

/-- In every run of transactions every session was opened by one of them, its
terms are those of that opening ever after, and a settlement on it pays its
provider, by order of one of its two settlers, an amount its agent signed. -/
theorem payouts_authorised {verify : Scheme} {rt : Runtime} {L₀ L : EscrowLedger}
    {h : History EscrowLedger TransactionLabel} (hr : Run (TransactionStep verify rt) L₀ h L)
    (hg : Genesis rt L₀) :
    (∀ key s, sessionAt rt L key = some s →
      ∃ t ∈ h, ∃ a₀ args₀, OpenedBy verify rt key a₀ args₀ t) ∧
    ∀ t ∈ h, ∀ key a₀ args₀, OpenedBy verify rt key a₀ args₀ t →
      (∃ s, sessionAt rt L key = some s ∧ Terms a₀ args₀ s) ∧
      ∀ (tx : Transaction) now sysvar a args L' ev, tx.WellFormed → tx.accepted verify = true →
        tx.call = .settleSession now sysvar a args → a.session = key →
        settleSession rt L now sysvar a args = .ok (L', ev) →
          Payout verify rt L L' sysvar a args a₀ args₀ := by
  constructor
  · intro key s hs
    exact opening_of_session hr hg hs
  · intro t ht key a₀ args₀ ho
    have hterms := terms_run hr ht ho
    refine ⟨hterms, ?_⟩
    intro tx now sysvar a args L' ev hwf hacc hcall hkey hok
    rcases hterms with ⟨s, hs, hterms⟩
    subst hkey
    rcases settled_of_ok hok hs with ⟨delta, he⟩
    exact Settled.payout he hterms fun ix hix hprogram =>
      Transaction.accepts hacc (hwf now sysvar a args hcall) hix hprogram

/-! ### A signed settlement -/
namespace Office
open SettlementAgreement.Office GatewayClaims

/-- The scheme on the one claim that occurs. -/
def scheme : Scheme := fun key message signature =>
  key = agent.toList ∧ message = claim100.signingBytes ∧ signature = signature100.toList

def openTransaction : Transaction where
  instructions := [⟨agentpayId, []⟩]
  call := .openSession 1000 ⟨agent, provider, mint, session, vault, agentToken, tokenProgramId⟩
    ⟨sessionId, 1000, 5000, authority⟩

def settleInstructions : List Instruction :=
  [buildEd25519Instruction agent signature100 claim100.signingBytes, ⟨agentpayId, []⟩]

def settleAccounts : SettleAccounts :=
  ⟨authority, session, record, vault, providerToken, mint, tokenProgramId⟩

def settleArgs : SettleArgs := ⟨100, 1, 4000, Vector.replicate 32 0⟩

def settleTransaction : Transaction where
  instructions := settleInstructions
  call := .settleSession 2000 ⟨settleInstructions, 1⟩ settleAccounts settleArgs

def opened : EscrowLedger := transact scheme runtime (ledgerOf accounts) openTransaction

theorem settle_ok : ∃ L' ev, settleSession runtime opened 2000 ⟨settleInstructions, 1⟩
    settleAccounts settleArgs = .ok (L', ev) := by
  have h : error? (execute runtime opened settleTransaction.call) = none := by decide +kernel
  rcases execute_apply h with ⟨ev, hev⟩
  exact ⟨_, ev, hev⟩

theorem openedBy : OpenedBy scheme runtime session
    ⟨agent, provider, mint, session, vault, agentToken, tokenProgramId⟩
    ⟨sessionId, 1000, 5000, authority⟩ ⟨ledgerOf accounts, .send openTransaction, opened⟩ := by
  have h : error? (execute runtime (ledgerOf accounts) openTransaction.call) = none := by
    decide +kernel
  rcases execute_apply h with ⟨ev, hev⟩
  exact ⟨openTransaction, 1000, _, rfl, by decide +kernel, rfl, rfl, hev⟩

theorem run_opened : Run (TransactionStep scheme runtime) (ledgerOf accounts)
    [⟨ledgerOf accounts, .send openTransaction, opened⟩] opened := by
  apply Run.start.step
  apply TransactionStep.send
  · exact signer_of_not_mem (by decide +kernel)
  · intro now sysvar a args hcall
    cases hcall

end Office

/-- The authority settles the agent's signed claim for 100. -/
theorem payouts_authorised_office : ∃ L' ev,
    settleSession SettlementAgreement.Office.runtime Office.opened 2000
      ⟨Office.settleInstructions, 1⟩ Office.settleAccounts Office.settleArgs = .ok (L', ev) ∧
    Payout Office.scheme SettlementAgreement.Office.runtime Office.opened L'
      ⟨Office.settleInstructions, 1⟩ Office.settleAccounts Office.settleArgs
      ⟨SettlementAgreement.Office.agent, SettlementAgreement.Office.provider,
        SettlementAgreement.Office.mint, SettlementAgreement.Office.session,
        SettlementAgreement.Office.vault, SettlementAgreement.Office.agentToken, tokenProgramId⟩
      ⟨SettlementAgreement.Office.sessionId, 1000, 5000,
        SettlementAgreement.Office.authority⟩ := by
  rcases Office.settle_ok with ⟨L', ev, hok⟩
  have hmain := payouts_authorised Office.run_opened SettlementAgreement.Office.start_initial.ledger
  have hopened := hmain.2 _ List.mem_cons_self _ _ _ Office.openedBy
  refine ⟨L', ev, hok, hopened.2 Office.settleTransaction 2000 _ _ _ L' ev ?_ ?_ rfl rfl hok⟩
  · intro now sysvar a args hcall
    cases hcall
    rfl
  · decide +kernel

end AgentPay.PayoutAuthority
