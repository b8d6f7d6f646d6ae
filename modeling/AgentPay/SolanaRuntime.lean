import AgentPay.Fallible
import Mathlib.Data.List.Nodup
import Mathlib.Data.Nat.Notation
import Mathlib.Logic.Function.Basic

/-!
# Accounts, derived addresses and the native programs around one program

The ledger maps every address to an account with its lamports, its owning
program and its data; an untouched address holds an empty account of the
system program. `δ` is the type of the data of the program under study. The
token and system programs are modelled by their documented effect on accounts:
`transferChecked` debits the amount and credits it less the mint's withheld
fee, `createAccount` requires an address with no lamports, and `initAccount`
is the framework's `init`, which completes an address that was funded before.
Frozen accounts, delegates and transfer hooks are outside the model.

`createProgramAddress` stands for the runtime's SHA-256 derivation over the
concatenated seeds. Its two laws are the usual idealizations of that hash: no
two seed strings give one address, and an address does not occur in its own
seeds. A derivation that finds no bump is `none`.
-/
namespace AgentPay.SolanaRuntime
open Fallible

abbrev Pubkey := Vector UInt8 32

/-- A wallet or program address given by one repeated byte, as in the tests. -/
def Pubkey.filled (b : UInt8) : Pubkey := Vector.replicate 32 b

def systemProgramId : Pubkey := Pubkey.filled 0

/-- `TokenkegQfeZyiNwAJbNbGKPFXCWuBvf9Ss623VQ5DA`. -/
def tokenProgramId : Pubkey := #v[6, 221, 246, 225, 215, 101, 161, 147, 217, 203, 225, 70, 206,
  235, 121, 172, 28, 180, 133, 237, 95, 91, 55, 145, 58, 140, 245, 133, 126, 255, 0, 169]

/-- `TokenzQdBNbLqP5VEhdkAS6EPFLC1PHnBqCXEpPxuEb`. -/
def token2022ProgramId : Pubkey := #v[6, 221, 246, 225, 238, 117, 143, 222, 24, 66, 93, 188, 228,
  108, 205, 218, 182, 26, 252, 77, 131, 185, 13, 39, 254, 189, 249, 40, 216, 161, 139, 252]

/-- A token account. The supply of a mint is itself a `u64` which the token
program maintains, so a credit cannot overflow and balances are naturals. -/
structure TokenAccount where
  mint : Pubkey
  owner : Pubkey
  amount : ℕ
deriving DecidableEq

def TokenAccount.credit (t : TokenAccount) (n : ℕ) : TokenAccount :=
  { t with amount := t.amount + n }

def TokenAccount.debit (t : TokenAccount) (n : ℕ) : TokenAccount :=
  { t with amount := t.amount - n }

inductive AccountData (δ : Type) where
  | empty
  | program (d : δ)
  | token (t : TokenAccount)
  | mint (decimals : UInt8)
  | other
deriving DecidableEq

namespace AccountData
variable {δ : Type}

def isEmpty : AccountData δ → Bool
  | .empty => true
  | _ => false

def token? : AccountData δ → Option TokenAccount
  | .token t => some t
  | _ => none

def program? : AccountData δ → Option δ
  | .program d => some d
  | _ => none

def mint? : AccountData δ → Option UInt8
  | .mint d => some d
  | _ => none

@[simp] theorem isEmpty_eq_true {d : AccountData δ} : d.isEmpty = true ↔ d = .empty := by
  cases d <;> simp [isEmpty]

@[simp] theorem token?_eq_some {d : AccountData δ} {t : TokenAccount} :
    d.token? = some t ↔ d = .token t := by
  cases d <;> simp [token?]

end AccountData

structure Account (δ : Type) where
  lamports : ℕ
  owner : Pubkey
  data : AccountData δ
deriving DecidableEq

abbrev Ledger (δ : Type) := Pubkey → Account δ

/-- Owner and data are kept; lamports are not part of the comparison. -/
def Kept {δ : Type} (L L' : Ledger δ) (k : Pubkey) : Prop :=
  (L' k).owner = (L k).owner ∧ (L' k).data = (L k).data

theorem Kept.trans {δ : Type} {L M N : Ledger δ} {k : Pubkey} (h₁ : Kept L M k)
    (h₂ : Kept M N k) : Kept L N k :=
  ⟨h₂.1.trans h₁.1, h₂.2.trans h₁.2⟩

/-- An address that no program has claimed. It may hold lamports. -/
def Unused {δ : Type} (L : Ledger δ) (k : Pubkey) : Prop :=
  (L k).owner = systemProgramId ∧ (L k).data = .empty

/-- The ledger with the listed accounts and nothing else. -/
def ledgerOf {δ : Type} (accounts : List (Pubkey × Account δ)) : Ledger δ := fun k =>
  match accounts.find? fun e => e.1 = k with
  | some e => e.2
  | none => ⟨0, systemProgramId, .empty⟩

theorem ledgerOf_cases {δ : Type} (accounts : List (Pubkey × Account δ)) (k : Pubkey) :
    (k, ledgerOf accounts k) ∈ accounts ∨ ledgerOf accounts k = ⟨0, systemProgramId, .empty⟩ := by
  unfold ledgerOf
  split
  · rename_i e he
    have hk : e.1 = k := by simpa using List.find?_some he
    subst hk
    exact .inl (List.mem_of_find?_eq_some he)
  · exact .inr rfl

/-- The parts of the runtime that are parameters, with what is relied on. -/
structure Runtime where
  programId : Pubkey
  createProgramAddress : List UInt8 → Option Pubkey
  minimumBalance : ℕ → ℕ
  sha256 : List UInt8 → Vector UInt8 32
  /-- The amount a mint withholds from a transfer; zero for a plain mint. -/
  fee : Pubkey → ℕ → ℕ
  create_injective : ∀ {x y : List UInt8} {k : Pubkey},
    createProgramAddress x = some k → createProgramAddress y = some k → x = y
  create_fresh : ∀ {x : List UInt8} {k : Pubkey}, createProgramAddress x = some k →
    ∀ u v : List UInt8, x ≠ u ++ k.toList ++ v
  fee_le : ∀ m a, fee m a ≤ a
  programId_ne_system : programId ≠ systemProgramId
  programId_ne_token : programId ≠ tokenProgramId ∧ programId ≠ token2022ProgramId

namespace Runtime
variable (rt : Runtime)

/-- The address for these seeds and this bump, as `bump = ...` checks it. -/
def derive (seeds : List (List UInt8)) (bump : UInt8) : Option Pubkey :=
  rt.createProgramAddress (seeds.flatten ++ [bump])

/-- The canonical address: the first bump from 255 downwards that gives one. -/
def findProgramAddress (seeds : List (List UInt8)) : Option (Pubkey × UInt8) :=
  (List.range 256).reverse.findSome? fun b =>
    (rt.derive seeds (UInt8.ofNat b)).map fun k => (k, UInt8.ofNat b)

theorem derive_of_find {seeds : List (List UInt8)} {k : Pubkey} {b : UInt8}
    (h : rt.findProgramAddress seeds = some (k, b)) : rt.derive seeds b = some k := by
  obtain ⟨n, _, hn⟩ := List.exists_of_findSome?_eq_some h
  simp only [Option.map_eq_some_iff, Prod.mk.injEq] at hn
  obtain ⟨k', hk, rfl, rfl⟩ := hn
  exact hk

/-- An address only the program itself can sign for. -/
def ProgramAddress (k : Pubkey) : Prop := ∃ x, rt.createProgramAddress x = some k

theorem programAddress_of_derive {seeds : List (List UInt8)} {k : Pubkey} {b : UInt8}
    (h : rt.derive seeds b = some k) : rt.ProgramAddress k := ⟨_, h⟩

/-- A transaction signer holds a private key, so it is no derived address. -/
def Signer (k : Pubkey) : Prop := ¬rt.ProgramAddress k

section Table
variable (programId : Pubkey) (table : List (List UInt8 × Pubkey))

/-- Derivation by a finite table of seed strings and their addresses. -/
def lookupAddress (x : List UInt8) : Option Pubkey :=
  (table.find? fun e => e.1 = x).map Prod.snd

theorem mem_of_lookupAddress {table : List (List UInt8 × Pubkey)} {x : List UInt8} {k : Pubkey}
    (h : lookupAddress table x = some k) : (x, k) ∈ table := by
  obtain ⟨⟨y, k'⟩, he, rfl⟩ := Option.map_eq_some_iff.mp h
  have hy : y = x := by simpa using List.find?_some he
  subst hy
  exact List.mem_of_find?_eq_some he

/-- The runtime of a finite table, with the rent of the main network and a
hash given on the messages that are used. -/
def ofTable (hash : List UInt8 → Vector UInt8 32) (hnodup : (table.map Prod.snd).Nodup)
    (hfresh : ∀ e ∈ table, ¬e.2.toList <:+: e.1) (hsystem : programId ≠ systemProgramId)
    (htoken : programId ≠ tokenProgramId ∧ programId ≠ token2022ProgramId) : Runtime where
  programId := programId
  createProgramAddress := lookupAddress table
  minimumBalance space := (space + 128) * 6960
  sha256 := hash
  fee _ _ := 0
  create_injective := by
    intro x y k hx hy
    have he := List.inj_on_of_nodup_map hnodup (mem_of_lookupAddress hx)
      (mem_of_lookupAddress hy) rfl
    exact congrArg Prod.fst he
  create_fresh := by
    rintro x k hx u v rfl
    exact hfresh _ (mem_of_lookupAddress hx) ⟨u, v, rfl⟩
  fee_le := fun _ a => Nat.zero_le a
  programId_ne_system := hsystem
  programId_ne_token := htoken

theorem mem_of_programAddress_ofTable {programId : Pubkey} {table : List (List UInt8 × Pubkey)}
    {hash : List UInt8 → Vector UInt8 32} {h₁ h₂ h₃ h₄} {k : Pubkey}
    (h : (ofTable programId table hash h₁ h₂ h₃ h₄).ProgramAddress k) :
    k ∈ table.map Prod.snd := by
  obtain ⟨x, hx⟩ := h
  exact List.mem_map_of_mem (mem_of_lookupAddress hx)

end Table

end Runtime

section Token
variable {δ : Type}

inductive TokenError where
  | invalidAccount
  | insufficientFunds
  | mintMismatch
  | ownerMismatch
deriving DecidableEq, Repr

/-- The token account at `k`, if `program` is the token program that owns it. -/
def tokenAt (L : Ledger δ) (program k : Pubkey) : Option TokenAccount :=
  if (L k).owner = program then (L k).data.token? else none

/-- `InterfaceAccount<TokenAccount>`: owned by either token program. -/
def interfaceToken (L : Ledger δ) (k : Pubkey) : Option TokenAccount :=
  if (L k).owner = tokenProgramId ∨ (L k).owner = token2022ProgramId then
    (L k).data.token? else none

/-- `InterfaceAccount<Mint>`, with its decimals. -/
def interfaceMint (L : Ledger δ) (k : Pubkey) : Option UInt8 :=
  if (L k).owner = tokenProgramId ∨ (L k).owner = token2022ProgramId then
    (L k).data.mint? else none

/-- The balance of a token account, zero where there is none. -/
def balance (L : Ledger δ) (k : Pubkey) : ℕ :=
  match (L k).data.token? with
  | some t => t.amount
  | none => 0

def setToken (L : Ledger δ) (k : Pubkey) (t : TokenAccount) : Ledger δ :=
  Function.update L k { L k with data := .token t }

/-- The effect of a transfer that passed its checks. An account transferring to
itself keeps its balance. -/
def moveTokens (rt : Runtime) (L : Ledger δ) (source destination : Pubkey)
    (src dst : TokenAccount) (amount : ℕ) : Ledger δ :=
  if source = destination then L else
    setToken (setToken L source (src.debit amount)) destination
      (dst.credit (amount - rt.fee dst.mint amount))

/-- The token program's `transfer_checked`. -/
def transferChecked (rt : Runtime) (L : Ledger δ)
    (program source mint destination authority : Pubkey) (amount : ℕ) :
    Except TokenError (Ledger δ) := do
  let src ← okOr (tokenAt L program source) .invalidAccount
  let dst ← okOr (tokenAt L program destination) .invalidAccount
  require (amount ≤ src.amount) .insufficientFunds
  require (src.mint = mint ∧ dst.mint = mint) .mintMismatch
  require (src.owner = authority) .ownerMismatch
  require ((L mint).owner = program) .invalidAccount
  pure (moveTokens rt L source destination src dst amount)

theorem tokenAt_eq_some {L : Ledger δ} {program k : Pubkey} {t : TokenAccount} :
    tokenAt L program k = some t ↔ (L k).owner = program ∧ (L k).data = .token t := by
  unfold tokenAt
  split_ifs with h <;> simp [h]

theorem interfaceToken_eq_some {L : Ledger δ} {k : Pubkey} {t : TokenAccount} :
    interfaceToken L k = some t ↔
      ((L k).owner = tokenProgramId ∨ (L k).owner = token2022ProgramId) ∧
        (L k).data = .token t := by
  unfold interfaceToken
  split_ifs with h <;> simp [h]

@[simp] theorem balance_of_token {L : Ledger δ} {k : Pubkey} {t : TokenAccount}
    (h : (L k).data = .token t) : balance L k = t.amount := by
  simp [balance, h, AccountData.token?]

theorem transferChecked_eq_ok {rt : Runtime} {L L' : Ledger δ}
    {program source mint destination authority : Pubkey} {amount : ℕ} :
    transferChecked rt L program source mint destination authority amount = .ok L' ↔
      ∃ src dst, tokenAt L program source = some src ∧ tokenAt L program destination = some dst ∧
        amount ≤ src.amount ∧ (src.mint = mint ∧ dst.mint = mint) ∧ src.owner = authority ∧
        (L mint).owner = program ∧ moveTokens rt L source destination src dst amount = L' := by
  simp only [transferChecked, bind_eq_ok, okOr_eq_ok, require_eq_ok, pure_eq_ok, exists_and_left,
    exists_const]

/-- The only way to lack funds: the source exists and holds too little. -/
theorem transferChecked_insufficientFunds {rt : Runtime} {L : Ledger δ}
    {program source mint destination authority : Pubkey} {amount : ℕ}
    (h : transferChecked rt L program source mint destination authority amount =
      .error .insufficientFunds) :
    ∃ src, (L source).data = .token src ∧ src.amount < amount := by
  simp only [transferChecked, bind_eq_error, okOr_eq_error, okOr_eq_ok, require_eq_error,
    require_eq_ok, pure_eq_error, reduceCtorEq, and_false, and_true, false_or, or_false,
    exists_false] at h
  obtain ⟨src, hs, dst, _, hlt⟩ := h
  exact ⟨src, (tokenAt_eq_some.mp hs).2, Nat.lt_of_not_le hlt⟩

/-- A transfer between two accounts changes exactly their two balances. -/
theorem moveTokens_apply {rt : Runtime} {L : Ledger δ} {source destination : Pubkey}
    {src dst : TokenAccount} {amount : ℕ} (hne : source ≠ destination) (k : Pubkey) :
    moveTokens rt L source destination src dst amount k =
      if k = destination then
        { L k with data := .token (dst.credit (amount - rt.fee dst.mint amount)) }
      else if k = source then { L k with data := .token (src.debit amount) }
      else L k := by
  unfold moveTokens setToken
  rw [if_neg hne]
  by_cases hd : k = destination
  · subst hd
    simp [Ne.symm hne]
  · by_cases hs : k = source
    · subst hs
      simp [hd]
    · simp [hd, hs]

end Token

section System
variable {δ : Type}

inductive SystemError where
  | accountAlreadyInUse
  | invalidPayer
  | insufficientLamports
deriving DecidableEq, Repr

/-- The payer of rent is a plain wallet with enough lamports. -/
def canPay (L : Ledger δ) (payer : Pubkey) (lamports : ℕ) : Except SystemError Unit := do
  require ((L payer).owner = systemProgramId ∧ (L payer).data.isEmpty = true) .invalidPayer
  require (lamports ≤ (L payer).lamports) .insufficientLamports

def debit (L : Ledger δ) (payer : Pubkey) (lamports : ℕ) : Ledger δ :=
  Function.update L payer { L payer with lamports := (L payer).lamports - lamports }

/-- `system_program::create_account`. -/
def createAccount (L : Ledger δ) (payer addr : Pubkey) (lamports : ℕ) (owner : Pubkey)
    (data : AccountData δ) : Except SystemError (Ledger δ) := do
  require ((L addr).lamports = 0 ∧ (L addr).owner = systemProgramId ∧
    (L addr).data.isEmpty = true) .accountAlreadyInUse
  canPay L payer lamports
  pure (Function.update (debit L payer lamports) addr ⟨lamports, owner, data⟩)

/-- The framework's `init`: an address that already holds lamports is topped
up, allocated and assigned instead of created. -/
def initAccount (rt : Runtime) (L : Ledger δ) (payer addr : Pubkey) (space : ℕ)
    (owner : Pubkey) (data : AccountData δ) : Except SystemError (Ledger δ) :=
  let rent := rt.minimumBalance space
  if (L addr).lamports = 0 then createAccount L payer addr rent owner data else do
    let missing := max rent 1 - (L addr).lamports
    canPay L payer missing
    require ((L addr).owner = systemProgramId ∧ (L addr).data.isEmpty = true)
      .accountAlreadyInUse
    pure (Function.update (debit L payer missing) addr
      ⟨(L addr).lamports + missing, owner, data⟩)

theorem canPay_eq_ok {L : Ledger δ} {payer : Pubkey} {lamports : ℕ} {u : Unit} :
    canPay L payer lamports = .ok u ↔
      ((L payer).owner = systemProgramId ∧ (L payer).data = .empty) ∧
        lamports ≤ (L payer).lamports := by
  simp [canPay]

theorem createAccount_eq_ok {L L' : Ledger δ} {payer addr owner : Pubkey} {lamports : ℕ}
    {data : AccountData δ} :
    createAccount L payer addr lamports owner data = .ok L' ↔
      ((L addr).lamports = 0 ∧ (L addr).owner = systemProgramId ∧ (L addr).data = .empty) ∧
      (((L payer).owner = systemProgramId ∧ (L payer).data = .empty) ∧
        lamports ≤ (L payer).lamports) ∧
      Function.update (debit L payer lamports) addr ⟨lamports, owner, data⟩ = L' := by
  simp only [createAccount, bind_eq_ok, require_eq_ok, canPay_eq_ok, pure_eq_ok,
    AccountData.isEmpty_eq_true, exists_and_left, exists_const]

@[simp] theorem debit_owner (L : Ledger δ) (payer k : Pubkey) (n : ℕ) :
    (debit L payer n k).owner = (L k).owner := by
  unfold debit
  by_cases h : k = payer
  · subst h
    simp
  · simp [h]

@[simp] theorem debit_data (L : Ledger δ) (payer k : Pubkey) (n : ℕ) :
    (debit L payer n k).data = (L k).data := by
  unfold debit
  by_cases h : k = payer
  · subst h
    simp
  · simp [h]

/-- Creation fills an unused address and leaves owner and data elsewhere. -/
structure Created (L L' : Ledger δ) (addr owner : Pubkey) (data : AccountData δ) : Prop where
  unused : Unused L addr
  filled : (L' addr).owner = owner ∧ (L' addr).data = data
  frame : ∀ k, k ≠ addr → Kept L L' k

theorem created_update {L : Ledger δ} {payer addr owner : Pubkey} {n lamports : ℕ}
    {data : AccountData δ} (hu : Unused L addr) :
    Created L (Function.update (debit L payer n) addr ⟨lamports, owner, data⟩) addr owner data := by
  refine ⟨hu, by simp, ?_⟩
  intro k hk
  simp [Kept, hk]

theorem createAccount_created {L L' : Ledger δ} {payer addr owner : Pubkey} {lamports : ℕ}
    {data : AccountData δ} (h : createAccount L payer addr lamports owner data = .ok L') :
    Created L L' addr owner data := by
  obtain ⟨⟨_, hu⟩, _, rfl⟩ := createAccount_eq_ok.mp h
  exact created_update hu

theorem initAccount_created {rt : Runtime} {L L' : Ledger δ} {payer addr owner : Pubkey}
    {space : ℕ} {data : AccountData δ}
    (h : initAccount rt L payer addr space owner data = .ok L') :
    Created L L' addr owner data := by
  simp only [initAccount] at h
  split_ifs at h
  · exact createAccount_created h
  · simp only [bind_eq_ok, require_eq_ok, pure_eq_ok, AccountData.isEmpty_eq_true] at h
    obtain ⟨_, _, _, hu, rfl⟩ := h
    exact created_update hu

end System

/-- What everybody else may do between two instructions of the program. Data
of the program is written only by it; nobody debits, closes or reassigns a
token account held by a derived address, but anybody may pay into one; an
unused derived address can only gain lamports. Everything else may change. -/
structure External {δ : Type} (rt : Runtime) (L L' : Ledger δ) : Prop where
  owned : ∀ k, (L k).owner = rt.programId →
    (L' k).owner = rt.programId ∧ (L' k).data = (L k).data ∧ (L k).lamports ≤ (L' k).lamports
  foreign : ∀ k, (L k).owner ≠ rt.programId → (L' k).owner = rt.programId →
    (L' k).data.program? = none
  held : ∀ k t, (L k).data = .token t → rt.ProgramAddress t.owner →
    (L' k).owner = (L k).owner ∧
      ∃ n, t.amount ≤ n ∧ (L' k).data = .token { t with amount := n }
  unused : ∀ k, rt.ProgramAddress k → Unused L k →
    Unused L' k ∧ (L k).lamports ≤ (L' k).lamports

/-- A plain transfer of lamports by a signer. -/
def sendLamports {δ : Type} (L : Ledger δ) (sender recipient : Pubkey) (n : ℕ) : Ledger δ :=
  let L₁ := debit L sender n
  Function.update L₁ recipient { L₁ recipient with lamports := (L₁ recipient).lamports + n }

theorem sendLamports_kept {δ : Type} (L : Ledger δ) (sender recipient : Pubkey) (n : ℕ)
    (k : Pubkey) : Kept L (sendLamports L sender recipient n) k := by
  unfold Kept sendLamports
  by_cases hk : k = recipient
  · subst hk
    simp
  · simp [hk]

theorem le_lamports_sendLamports {δ : Type} (L : Ledger δ) {sender : Pubkey}
    (recipient : Pubkey) (n : ℕ) {k : Pubkey} (hk : k ≠ sender) :
    (L k).lamports ≤ (sendLamports L sender recipient n k).lamports := by
  unfold sendLamports debit
  by_cases hr : k = recipient
  · subst hr
    simp [hk]
  · simp [hr, hk]

theorem external_sendLamports {δ : Type} {rt : Runtime} {L : Ledger δ} {sender : Pubkey}
    (hs : rt.Signer sender) (ho : (L sender).owner ≠ rt.programId) (recipient : Pubkey) (n : ℕ) :
    External rt L (sendLamports L sender recipient n) := by
  have hk := sendLamports_kept L sender recipient n
  constructor
  · intro k hp
    have hne : k ≠ sender := by
      rintro rfl
      exact ho hp
    exact ⟨(hk k).1.trans hp, (hk k).2, le_lamports_sendLamports L recipient n hne⟩
  · intro k hp hp'
    exact absurd ((hk k).1.symm.trans hp') hp
  · intro k t ht _
    exact ⟨(hk k).1, t.amount, Nat.le_refl _, (hk k).2.trans ht⟩
  · intro k hp hu
    have hne : k ≠ sender := by
      rintro rfl
      exact hs hp
    exact ⟨⟨(hk k).1.trans hu.1, (hk k).2.trans hu.2⟩, le_lamports_sendLamports L recipient n hne⟩

end AgentPay.SolanaRuntime
