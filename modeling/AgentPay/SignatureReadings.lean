import AgentPay.PayoutAuthority

/-!
# Two readers of one signature instruction

The Ed25519 precompile and `verify_ed25519_claim` read the same header, each with its own
code. `declaredSignatures` is what the precompile reads, from its own data or from other
instructions, as the header says. The program accepts exactly the instructions of which
the precompile reads, whatever the rest of the transaction, the one signature the program
is asked about. It checks the length before it reads, so no layout makes it read outside.
-/
namespace AgentPay.SignatureReadings
open SolanaRuntime EscrowState ClaimMessage PayoutAuthority Fallible

/-- One signature to verify, as the precompile read it. -/
structure SignatureRegions where
  publicKey : List UInt8
  message : List UInt8
  signature : List UInt8
deriving DecidableEq

def SignatureRegions.verifies (verify : Scheme) (r : SignatureRegions) : Bool :=
  verify r.publicKey r.message r.signature

section Precompile
variable (tx : List Instruction)

/-- The regions whose fourteen bytes of offsets start at `start`. -/
def signatureRegions (data : List UInt8) (start : ℕ) : Option SignatureRegions := do
  let signatureOffset ← (readU16 data start).toOption
  let signatureIndex ← (readU16 data (start + 2)).toOption
  let publicKeyOffset ← (readU16 data (start + 4)).toOption
  let publicKeyIndex ← (readU16 data (start + 6)).toOption
  let messageOffset ← (readU16 data (start + 8)).toOption
  let messageSize ← (readU16 data (start + 10)).toOption
  let messageIndex ← (readU16 data (start + 12)).toOption
  let signature ← region tx data signatureIndex signatureOffset 64
  let publicKey ← region tx data publicKeyIndex publicKeyOffset 32
  let message ← region tx data messageIndex messageOffset messageSize
  some ⟨publicKey, message, signature⟩

/-- Everything the precompile reads: nothing when it gives up. -/
def declaredSignatures (data : List UInt8) : Option (List SignatureRegions) :=
  match data[0]? with
  | none => none
  | some count =>
    if 2 ≤ data.length ∧ (count = 0 → data.length = 2) ∧ 2 + 14 * count.toNat ≤ data.length then
      (List.range count.toNat).mapM fun i => signatureRegions tx data (2 + 14 * i)
    else none

end Precompile

section Reads
variable {data : List UInt8} {i lo hi : ℕ}

theorem byteAt_of_lt (h : i < data.length) : ∃ b, data[i]? = some b ∧ byteAt data i = .ok b := by
  have hget := List.getElem?_eq_getElem h
  exact ⟨_, hget, by rw [byteAt, hget, okOr]⟩

theorem lt_of_readU16 {n : ℕ} (h : readU16 data i = .ok n) : i + 1 < data.length := by
  simp only [readU16, bind_eq_ok, byteAt, okOr_eq_ok] at h
  rcases h with ⟨_, -, _, hget, -⟩
  exact (List.getElem?_eq_some_iff.mp hget).1

theorem slice_of_le (hlo : lo ≤ hi) (hhi : hi ≤ data.length) :
    slice data lo hi = .ok ((data.drop lo).take (hi - lo)) := by
  rw [slice, require_bind_of ⟨hlo, hhi⟩]
  rfl

theorem slice_eq_ok {bytes : List UInt8} : slice data lo hi = .ok bytes ↔
    (lo ≤ hi ∧ hi ≤ data.length) ∧ (data.drop lo).take (hi - lo) = bytes := by
  simp only [slice, bind_eq_ok, require_eq_ok, pure_eq_ok, exists_const]

end Reads

section Declared
variable {tx : List Instruction} {data : List UInt8} {verify : Scheme}

theorem mapM_eq_some_length {α β : Type} {f : α → Option β} {l : List α} {bs : List β}
    (h : l.mapM f = some bs) : bs.length = l.length := by
  induction l generalizing bs with
  | nil =>
    cases h
    rfl
  | cons a l ih =>
    simp only [List.mapM_cons, Option.bind_eq_bind, Option.bind_eq_some_iff, Option.pure_def,
      Option.some.injEq] at h
    rcases h with ⟨b, -, bs', hbs, rfl⟩
    rw [List.length_cons, List.length_cons, ih hbs]

/-- Every call succeeds with a result that passes. -/
theorem all_map_iff {α β : Type} {f : α → Option β} {p : β → Bool} {l : List α} :
    (l.all fun a => (f a).map p = some true) = true ↔
      ∃ bs, l.mapM f = some bs ∧ bs.all p = true := by
  induction l with
  | nil => simp
  | cons a l ih =>
    rw [List.all_cons, Bool.and_eq_true, ih]
    simp only [List.mapM_cons, Option.bind_eq_bind, Option.bind_eq_some_iff, Option.pure_def,
      Option.some.injEq, decide_eq_true_eq, Option.map_eq_some_iff]
    constructor
    · rintro ⟨⟨b, hb, hp⟩, bs, hbs, hall⟩
      refine ⟨b :: bs, ⟨b, hb, bs, hbs, rfl⟩, ?_⟩
      rw [List.all_cons, hp, hall, Bool.and_self]
    · rintro ⟨_, ⟨b, hb, bs, hbs, rfl⟩, hall⟩
      rw [List.all_cons, Bool.and_eq_true] at hall
      exact ⟨⟨b, hb, hall.1⟩, bs, hbs, hall.2⟩

theorem signatureVerifies_eq {start : ℕ} : signatureVerifies verify tx data start =
    (signatureRegions tx data start).map (SignatureRegions.verifies verify) := by
  simp only [signatureVerifies, signatureRegions, Option.bind_eq_bind, Option.map_bind,
    Function.comp_def, Option.map_some, SignatureRegions.verifies]

/-- The precompile accepts when it can read everything and every signature verifies. -/
theorem precompileAccepts_iff : precompileAccepts verify tx data = true ↔
    ∃ rs, declaredSignatures tx data = some rs ∧
      rs.all (SignatureRegions.verifies verify) = true := by
  unfold precompileAccepts declaredSignatures
  rcases data[0]? with _ | count
  · simp
  · simp only [Bool.and_eq_true, decide_eq_true_eq, signatureVerifies_eq, all_map_iff]
    split_ifs with h
    · exact and_iff_right h
    · simp [h]

/-- The precompile reads the one signature of a header that declares one. -/
theorem declaredSignatures_of_one {r : SignatureRegions} (hone : data[0]? = some 1)
    (hlen : 16 ≤ data.length) (hr : signatureRegions tx data 2 = some r) :
    declaredSignatures tx data = some [r] := by
  have hlimits : 2 ≤ data.length ∧ ((1 : UInt8) = 0 → data.length = 2) ∧
      2 + 14 * (1 : UInt8).toNat ≤ data.length :=
    ⟨by omega, fun h => absurd h (by decide), by rwa [show (1 : UInt8).toNat = 1 from rfl]⟩
  rw [declaredSignatures, hone]
  simp only
  rw [if_pos hlimits]
  simp only [show (1 : UInt8).toNat = 1 from rfl, List.range_one, List.mapM_cons, List.mapM_nil,
    Nat.mul_zero, Nat.add_zero, hr, Option.bind_eq_bind, Option.bind_some, Option.pure_def]

theorem one_of_declaredSignatures {r : SignatureRegions}
    (h : declaredSignatures tx data = some [r]) :
    data[0]? = some 1 ∧ signatureRegions tx data 2 = some r := by
  unfold declaredSignatures at h
  rcases hget : data[0]? with _ | count
  · rw [hget] at h
    cases h
  · rw [hget] at h
    simp only at h
    split_ifs at h with hlimits
    have hcount : count.toNat = 1 := by
      have hlen := mapM_eq_some_length h
      rw [List.length_range, List.length_singleton] at hlen
      exact hlen.symm
    have hone : count = 1 := UInt8.toNat_inj.mp hcount
    rw [hcount] at h
    simp only [List.range_one, List.mapM_cons, List.mapM_nil, Nat.mul_zero, Nat.add_zero,
      Option.bind_eq_bind, Option.pure_def, Option.bind_some, Option.bind_eq_some_iff,
      Option.some.injEq, List.cons.injEq, and_true, exists_eq_right] at h
    exact ⟨by rw [hone], h⟩

end Declared

/-! ### What the program accepts -/

section Accepted
variable {sysvar : InstructionsSysvar} {signer : Pubkey} {message signature : List UInt8}
variable {data : List UInt8}

/-- The header puts the key, the message and the signature into its own instruction. -/
structure OwnRegions (data : List UInt8) (key message signature : List UInt8) : Prop where
  signature : ∃ o, readU16 data 2 = .ok o ∧ readU16 data 4 = .ok u16Max ∧
    slice data o (o + 64) = .ok signature
  key : ∃ o, readU16 data 6 = .ok o ∧ readU16 data 8 = .ok u16Max ∧
    slice data o (o + 32) = .ok key
  message : ∃ o size, readU16 data 10 = .ok o ∧ readU16 data 12 = .ok size ∧
    readU16 data 14 = .ok u16Max ∧ slice data o (o + size) = .ok message

theorem OwnRegions.read {key : List UInt8} (h : OwnRegions data key message signature)
    (tx : List Instruction) :
    signatureRegions tx data 2 = some ⟨key, message, signature⟩ := by
  rcases h with ⟨⟨o, h₂, h₄, hs⟩, ⟨k, h₆, h₈, hk⟩, ⟨m, size, h₁₀, h₁₂, h₁₄, hm⟩⟩
  simp only [signatureRegions, h₂, h₄, h₆, h₈, h₁₀, h₁₂, h₁₄, Except.toOption, Option.bind_eq_bind,
    Option.bind_some, Nat.reduceAdd, region_own.mpr hs, region_own.mpr hk, region_own.mpr hm]

/-- An index is the instruction's own exactly when a transaction without instructions still
has the bytes. -/
theorem region_nil {index offset size : ℕ} {bytes : List UInt8} :
    region [] data index offset size = some bytes ↔
      index = u16Max ∧ slice data offset (offset + size) = .ok bytes := by
  unfold region
  split_ifs with h
  · simp [h, toOption_eq_some]
  · simp [h]

theorem ownRegions_of_read {key : List UInt8}
    (h : signatureRegions [] data 2 = some ⟨key, message, signature⟩) :
    OwnRegions data key message signature := by
  simp only [signatureRegions, Option.bind_eq_bind, Option.bind_eq_some_iff, toOption_eq_some,
    Option.some.injEq, SignatureRegions.mk.injEq, region_nil] at h
  rcases h with ⟨o, h₂, i₁, h₄, k, h₆, i₂, h₈, m, h₁₀, size, h₁₂, i₃, h₁₄, _, ⟨rfl, hs⟩, _,
    ⟨rfl, hk⟩, _, ⟨rfl, hm⟩, rfl, rfl, rfl⟩
  exact ⟨⟨o, h₂, h₄, hs⟩, ⟨k, h₆, h₈, hk⟩, ⟨m, size, h₁₀, h₁₂, h₁₄, hm⟩⟩

/-- The program accepts an instruction exactly when the precompile reads of it, whatever
else is in the transaction, the one signature of the expected signer and message. -/
theorem verifyEd25519Claim_eq_ok : verifyEd25519Claim sysvar signer message = .ok () ↔
    0 < sysvar.currentIndex ∧ ∃ ix signature,
      sysvar.instructions[sysvar.currentIndex - 1]? = some ix ∧
      ix.programId = ed25519ProgramId ∧ ix.data[1]? = some 0 ∧
      ∀ tx, declaredSignatures tx ix.data = some [⟨signer.toList, message, signature⟩] := by
  simp only [verifyEd25519Claim, bind_eq_ok, require_eq_ok, okOr_eq_ok, exists_and_left,
    exists_const, byteAt]
  constructor
  · rintro ⟨hindex, ix, hix, hprogram, hlen, count, hcount, hone, padding, hpadding, hzero, o, h₂,
      i₁, h₄, k, h₆, i₂, h₈, m, h₁₀, size, h₁₂, i₃, h₁₄, ⟨hi₁, hi₂, hi₃⟩, hsize, hin, key, hk,
      hkey, text, hm, htext⟩
    rw [hi₁] at h₄
    rw [hi₂] at h₈
    rw [hi₃] at h₁₄
    rw [hkey] at hk
    rw [htext] at hm
    have hown : OwnRegions ix.data signer.toList message _ :=
      ⟨⟨o, h₂, h₄, slice_of_le (Nat.le_add_right _ _) hin.1⟩, ⟨k, h₆, h₈, hk⟩,
        ⟨m, size, h₁₀, h₁₂, h₁₄, hm⟩⟩
    exact ⟨hindex, ix, hix, hprogram, by rw [hpadding, hzero], _, fun tx =>
      declaredSignatures_of_one (by rw [hcount, hone]) hlen (hown.read tx)⟩
  · rintro ⟨hindex, ix, hix, hprogram, hpadding, signature, hdeclared⟩
    rcases one_of_declaredSignatures (hdeclared []) with ⟨hone, hread⟩
    rcases ownRegions_of_read hread with ⟨⟨o, h₂, h₄, hs⟩, ⟨k, h₆, h₈, hk⟩,
      ⟨m, size, h₁₀, h₁₂, h₁₄, hm⟩⟩
    have hlen : 15 < ix.data.length := lt_of_readU16 h₁₄
    have hmsg := slice_eq_ok.mp hm
    have hsize : size = message.length := by
      rw [← hmsg.2, List.length_take, List.length_drop]
      omega
    exact ⟨hindex, ix, hix, hprogram, hlen, 1, hone, rfl, 0, hpadding, rfl, o, h₂, u16Max, h₄, k,
      h₆, u16Max, h₈, m, h₁₀, size, h₁₂, u16Max, h₁₄, ⟨rfl, rfl, rfl⟩, hsize,
      ⟨(slice_eq_ok.mp hs).1.2, (slice_eq_ok.mp hk).1.2, hmsg.1.2⟩, _, hk, rfl, _, hm, rfl⟩

theorem raises_byteAt {p : Fault → Prop} {i : ℕ} :
    Raises p (byteAt data i) ↔ (data.length ≤ i → p .panic) := by
  rw [byteAt, raises_okOr, List.getElem?_eq_none_iff]

theorem raises_readU16 {p : Fault → Prop} {i : ℕ} :
    Raises p (readU16 data i) ↔ (data.length ≤ i + 1 → p .panic) := by
  simp only [readU16, raises_bind, raises_byteAt, raises_pure, implies_true, and_true]
  constructor
  · rintro ⟨hlo, hhi⟩ h
    by_cases hi : data.length ≤ i
    · exact hlo hi
    · rcases byteAt_of_lt (not_le.mp hi) with ⟨b, -, hb⟩
      exact hhi b hb h
  · exact fun h => ⟨fun hi => h (Nat.le_succ_of_le hi), fun _ _ => h⟩

theorem raises_slice {p : Fault → Prop} {lo hi : ℕ} :
    Raises p (slice data lo hi) ↔ (¬(lo ≤ hi ∧ hi ≤ data.length) → p .panic) := by
  simp only [slice, raises_bind, raises_require, raises_pure, implies_true, and_true]

/-- Every read is within the data, for any layout. -/
theorem verifyEd25519Claim_raises :
    Raises (fun e => e ≠ Fault.panic) (verifyEd25519Claim sysvar signer message) := by
  simp only [verifyEd25519Claim, raises_bind, raises_require, raises_okOr, raises_byteAt,
    raises_readU16, raises_slice, require_eq_ok, ne_eq, reduceCtorEq, not_false_eq_true,
    implies_true, true_and, and_true, not_true_eq_false, imp_false, not_le, okOr_eq_ok, not_not]
  intro _ _ ix _ _ _ _ hlen
  refine ⟨by omega, fun _ _ _ _ => ⟨by omega, fun _ _ _ _ => ⟨by omega, fun _ _ => ⟨by omega,
    fun _ _ => ⟨by omega, fun _ _ => ⟨by omega, fun _ _ => ⟨by omega, fun _ _ => ⟨by omega,
      fun _ _ => ⟨by omega, ?_⟩⟩⟩⟩⟩⟩⟩⟩⟩
  intro _ _ _ _ _ _ _ hin
  exact ⟨⟨Nat.le_add_right _ _, hin.2.1⟩, fun _ _ _ _ => ⟨Nat.le_add_right _ _, hin.2.2⟩⟩

end Accepted

/-- The introspection never reads outside the data. When it succeeds, the instruction before
the program's is the precompile's, its one signature is the expected signer's over the
expected message with all three regions in its own data, and the precompile, which reads the
same regions, accepts it only if the signer signed the message. -/
theorem introspection_sound_total (sysvar : InstructionsSysvar) (signer : Pubkey)
    (message : List UInt8) :
    verifyEd25519Claim sysvar signer message ≠ .error .panic ∧
    (verifyEd25519Claim sysvar signer message = .ok () → 0 < sysvar.currentIndex ∧
      ∃ ix signature, sysvar.instructions[sysvar.currentIndex - 1]? = some ix ∧
        ix.programId = ed25519ProgramId ∧ OwnRegions ix.data signer.toList message signature ∧
        signature.length = 64 ∧
        (∀ tx, declaredSignatures tx ix.data = some [⟨signer.toList, message, signature⟩]) ∧
        ∀ verify, precompileAccepts verify sysvar.instructions ix.data = true →
          verify signer.toList message signature = true) := by
  constructor
  · exact fun h => verifyEd25519Claim_raises _ h rfl
  · intro h
    rcases verifyEd25519Claim_eq_ok.mp h with ⟨hindex, ix, signature, hix, hprogram, -, hdeclared⟩
    have hown := ownRegions_of_read (one_of_declaredSignatures (hdeclared [])).2
    rcases hown.signature with ⟨o, -, -, hslice⟩
    refine ⟨hindex, ix, signature, hix, hprogram, hown, ?_, hdeclared, ?_⟩
    · rcases slice_eq_ok.mp hslice with ⟨hin, hbytes⟩
      rw [← hbytes, List.length_take, List.length_drop]
      omega
    · intro verify hacc
      rcases precompileAccepts_iff.mp hacc with ⟨rs, hrs, hall⟩
      have hsame : rs = [⟨signer.toList, message, signature⟩] :=
        Option.some.inj (hrs.symm.trans (hdeclared _))
      subst hsame
      rw [List.all_cons, List.all_nil, Bool.and_true] at hall
      exact hall

/-- What the clients build for the message of three bytes. -/
theorem introspection_sound_total_built :
    ∃ (ix : Instruction) (signature : List UInt8), ix.programId = ed25519ProgramId ∧
      signature.length = 64 ∧ ∀ tx, declaredSignatures tx ix.data =
        some [⟨(Vector.replicate 32 1 : Pubkey).toList, [1, 2, 3], signature⟩] := by
  have hok := @verify_buildEd25519Instruction (.replicate 32 1) (.replicate 64 7) [1, 2, 3]
    (by decide) []
  rcases (introspection_sound_total _ _ _).2 hok with
    ⟨-, ix, signature, -, hprogram, -, hlen, hdeclared, -⟩
  exact ⟨ix, signature, hprogram, hlen, hdeclared⟩

end AgentPay.SignatureReadings
