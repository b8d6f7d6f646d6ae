import AgentPay.StoreRuns
import AgentPay.EvidenceBinding

/-!
# The verified logs are the appended ones

`verify_chain` accepts a list of entries exactly when appending the amounts,
nonces and decisions it holds, one by one from the genesis hash, gives the list
back. On a log it refuses, the position it reports is where the log stops being
of this form. `buildChain` states the appending apart from any table;
`appendAll_eq` connects it to `append_evidence`, which numbers at most `2 ^ 63`
entries and clamps what it records.

The last hash of a verified log determines the log. The argument goes back from
the end, and the genesis value is where logs of different lengths are told apart.
As for the Merkle root, a coincidence of digests is not excluded; it is found
among the strings that were hashed.
-/
namespace AgentPay.EvidenceChains
open SolanaRuntime EscrowState ClaimMessage GatewayClaims EvidenceLog EvidenceBinding SessionStore
open StoreRuns Fallible

/-- What an entry records, apart from its place in a log. -/
structure Payload where
  cumulativeAmount : UInt64
  nonce : UInt64
  decision : List UInt8
deriving DecidableEq

def payload (e : EvidenceEntry) : Payload := ⟨e.cumulativeAmount, e.nonce, e.decision⟩

section Building
variable (sha256 : List UInt8 → Hash) (session : Pubkey)

/-- The entry that records `p` behind `entries`. -/
def nextEntry (entries : List EvidenceEntry) (p : Payload) : EvidenceEntry where
  sequenceId := Int64.ofNat entries.length
  cumulativeAmount := p.cumulativeAmount
  nonce := p.nonce
  decision := p.decision
  prevHash := tipHash zeroHash entries
  entryHash := computeEntryHash sha256 (tipHash zeroHash entries) session p.cumulativeAmount p.nonce
    p.decision

def extend (entries : List EvidenceEntry) (p : Payload) : List EvidenceEntry :=
  entries ++ [nextEntry sha256 session entries p]

/-- The log that records `payloads` in order. -/
def buildChain (payloads : List Payload) : List EvidenceEntry :=
  payloads.foldl (extend sha256 session) []

end Building

/-- The position an error speaks of: the number that was expected there, or the
number of the entry, which has been checked by then. -/
def ChainError.position : ChainError → Int64
  | .sequenceGap expected _ => expected
  | .brokenLink sequenceId => sequenceId
  | .hashMismatch sequenceId => sequenceId

section Built
variable {sha256 : List UInt8 → Hash} {session : Pubkey} {entries : List EvidenceEntry}

@[simp] theorem buildChain_nil : buildChain sha256 session [] = [] := rfl

theorem buildChain_concat (payloads : List Payload) (p : Payload) :
    buildChain sha256 session (payloads ++ [p]) =
      extend sha256 session (buildChain sha256 session payloads) p := by
  rw [buildChain, List.foldl_append]
  rfl

/-- An entry fits behind a log if it is the one that records its payload there. -/
theorem fits_iff {e : EvidenceEntry} :
    Fits sha256 session entries.length (tipHash zeroHash entries) e ↔
      e = nextEntry sha256 session entries (payload e) := by
  constructor
  · intro h
    rcases e with ⟨s, c, n, d, p, x⟩
    rcases h with ⟨hs, hp, hx⟩
    simp only at hs hp
    subst hs hp
    exact congrArg (EvidenceEntry.mk (Int64.ofNat entries.length) c n d (tipHash zeroHash entries))
      hx.symm
  · intro h
    rw [h]
    exact ⟨rfl, rfl, rfl⟩

theorem extend_eq_iff {e : EvidenceEntry} :
    entries ++ [e] = extend sha256 session entries (payload e) ↔
      Fits sha256 session entries.length (tipHash zeroHash entries) e := by
  rw [fits_iff, extend, List.append_cancel_left_eq, List.cons.injEq, and_iff_left rfl]

theorem verifyChain_iff_built (entries : List EvidenceEntry) :
    verifyChain sha256 session entries = .ok () ↔
      entries = buildChain sha256 session (entries.map payload) := by
  induction entries using List.reverseRecOn with
  | nil => exact ⟨fun _ => rfl, fun _ => rfl⟩
  | append_singleton entries e ih =>
    rw [verifyChain_concat, ih, List.map_append, List.map_singleton, buildChain_concat]
    constructor
    · rintro ⟨hinit, hfits⟩
      rw [← hinit]
      exact extend_eq_iff.mpr hfits
    · intro h
      have hparts := List.append_inj_left' h rfl
      refine ⟨hparts, ?_⟩
      rw [← hparts] at h
      exact extend_eq_iff.mp h

end Built

section Refusals
variable {sha256 : List UInt8 → Hash} {session : Pubkey} {entries : List EvidenceEntry}
variable {i : ℕ} {prev : Hash} {error : ChainError}

/-- A step of the loop that fails reports its own position. -/
theorem verifyFrom_cons_error {e : EvidenceEntry}
    (h : verifyFrom sha256 session i prev (e :: entries) = .error error) :
    (ChainError.position error = Int64.ofNat i ∧ ¬Fits sha256 session i prev e) ∨
      (Fits sha256 session i prev e ∧
        verifyFrom sha256 session (i + 1) e.entryHash entries = .error error) := by
  simp only [verifyFrom, bind_eq_error, require_eq_error, require_eq_ok, exists_const] at h
  rcases h with ⟨hs, rfl⟩ | ⟨hs, ⟨hp, rfl⟩ | ⟨hp, ⟨hx, rfl⟩ | ⟨hx, h⟩⟩⟩
  · exact .inl ⟨rfl, fun hf => hs hf.sequence⟩
  · exact .inl ⟨hs, fun hf => hp hf.link⟩
  · exact .inl ⟨hs, fun hf => hx hf.hash⟩
  · exact .inr ⟨⟨hs, hp, hx⟩, h⟩

/-- The loop stops at the first entry that does not fit. -/
theorem verifyFrom_error (h : verifyFrom sha256 session i prev entries = .error error) :
    ∃ (k : ℕ) (hk : k < entries.length),
      ChainError.position error = Int64.ofNat (i + k) ∧
      verifyFrom sha256 session i prev (entries.take k) = .ok () ∧
      ¬Fits sha256 session (i + k) (tipHash prev (entries.take k)) entries[k] := by
  induction entries generalizing i prev with
  | nil => cases h
  | cons e entries ih =>
    rcases verifyFrom_cons_error h with ⟨hpos, hnot⟩ | ⟨hfits, hrest⟩
    · exact ⟨0, Nat.zero_lt_succ _, hpos, rfl, hnot⟩
    · rcases ih hrest with ⟨k, hk, hpos, htake, hnot⟩
      refine ⟨k + 1, Nat.succ_lt_succ hk, ?_, ?_, ?_⟩
      · rw [hpos, show i + (k + 1) = i + 1 + k by omega]
      · rw [List.take_succ_cons, verifyFrom_cons]
        exact ⟨hfits, htake⟩
      · rw [List.take_succ_cons, tipHash_cons, List.getElem_cons_succ]
        rwa [show i + (k + 1) = i + 1 + k by omega]

theorem verifyChain_error (h : verifyChain sha256 session entries = .error error) :
    ∃ (k : ℕ) (hk : k < entries.length),
      ChainError.position error = Int64.ofNat k ∧
      entries.take k = buildChain sha256 session ((entries.take k).map payload) ∧
      entries.take k ++ [entries[k]] ≠
        extend sha256 session (entries.take k) (payload entries[k]) := by
  rcases verifyFrom_error h with ⟨k, hk, hpos, htake, hnot⟩
  rw [Nat.zero_add] at hpos hnot
  refine ⟨k, hk, hpos, (verifyChain_iff_built _).mp htake, ?_⟩
  rw [Ne, extend_eq_iff, List.length_take_of_le hk.le]
  exact hnot

end Refusals

section Appending

/-- A claim that was decided on, as `append_evidence` is handed it. -/
structure Attempt where
  claim : Claim
  decision : Decision
  signature : Signature
deriving DecidableEq

/-- What is recorded of an attempt: the amount and the nonce are clamped. -/
def Attempt.payload (a : Attempt) : Payload :=
  ⟨clampI64 a.claim.cumulativeAmount, clampI64 a.claim.nonce, a.decision.asStr⟩

def appendAll (sha256 : List UInt8 → Hash) (db : Database) (attempts : List Attempt) :
    Except DbError Database :=
  attempts.foldlM (fun db a => appendEvidence sha256 db a.claim a.decision a.signature) db

variable {sha256 : List UInt8 → Hash} {session : Pubkey} {db db' : Database}

theorem entry_evidenceRow (a : Attempt) (entries : List EvidenceEntry) :
    (evidenceRow sha256 a.claim a.decision a.signature (Int64.ofNat entries.length)
      (tipHash zeroHash entries)).entry =
        nextEntry sha256 a.claim.session entries a.payload := by
  simp only [EvidenceRow.entry, evidenceRow, clampI64_roundTrip, nextEntry, Attempt.payload]

theorem appendEvidence_extends (a : Attempt)
    (h : Linked sha256 a.claim.session (db.evidence a.claim.session))
    (hroom : (db.evidence a.claim.session).length < 2 ^ 63) :
    ∃ db', appendEvidence sha256 db a.claim a.decision a.signature = .ok db' ∧
      Linked sha256 a.claim.session (db'.evidence a.claim.session) ∧
      (db'.evidence a.claim.session).length = (db.evidence a.claim.session).length + 1 ∧
      (db'.evidence a.claim.session).map EvidenceRow.entry =
        extend sha256 a.claim.session ((db.evidence a.claim.session).map EvidenceRow.entry)
          a.payload := by
  refine ⟨_, by rw [appendEvidence_eq h, if_pos hroom], ?_⟩
  rw [pushEvidence_evidence, if_pos rfl]
  refine ⟨h.push hroom, List.length_append, ?_⟩
  rw [List.map_append, List.map_singleton, extend, ← entry_evidenceRow, List.length_map]
  rfl

theorem appendAll_extends (attempts : List Attempt)
    (h : Linked sha256 session (db.evidence session))
    (hsession : ∀ a ∈ attempts, a.claim.session = session)
    (hroom : (db.evidence session).length + attempts.length ≤ 2 ^ 63) :
    ∃ db', appendAll sha256 db attempts = .ok db' ∧ Linked sha256 session (db'.evidence session) ∧
      (db'.evidence session).map EvidenceRow.entry =
        (attempts.map Attempt.payload).foldl (extend sha256 session)
          ((db.evidence session).map EvidenceRow.entry) := by
  induction attempts generalizing db with
  | nil => exact ⟨db, rfl, h, rfl⟩
  | cons a attempts ih =>
    rw [List.length_cons] at hroom
    have ha := hsession a List.mem_cons_self
    subst ha
    rcases appendEvidence_extends a h (by omega) with ⟨db₁, hok, hl, hlen, hmap⟩
    rcases ih hl (fun b hb => hsession b (List.mem_cons_of_mem _ hb)) (by omega)
      with ⟨db₂, hok₂, hl₂, hmap₂⟩
    refine ⟨db₂, ?_, hl₂, ?_⟩
    · rw [appendAll, List.foldlM_cons, hok, ok_bind]
      exact hok₂
    · rw [hmap₂, hmap, List.map_cons, List.foldl_cons]

/-- `append_evidence` builds the log: attempts recorded from an empty log read
back as the chain of what was recorded. -/
theorem appendAll_eq (attempts : List Attempt) (hnil : db.evidence session = [])
    (hsession : ∀ a ∈ attempts, a.claim.session = session) (hlen : attempts.length ≤ 2 ^ 63) :
    ∃ db', appendAll sha256 db attempts = .ok db' ∧
      loadEvidenceChain db' session =
        .ok (buildChain sha256 session (attempts.map Attempt.payload)) := by
  have hl : Linked sha256 session (db.evidence session) := by
    rw [hnil]
    exact ⟨by simp, by simp, rfl⟩
  rcases appendAll_extends attempts hl hsession (by simpa [hnil] using hlen)
    with ⟨db', hok, hl', hmap⟩
  refine ⟨db', hok, ?_⟩
  rw [hnil, List.map_nil] at hmap
  rw [buildChain, ← hmap]
  exact mapM_eq_ok fun e he => readEntry_eq (hl'.nonneg e he)

end Appending

section Heads
variable {sha256 : List UInt8 → Hash} {strings : List (List UInt8)} {session : Pubkey}

theorem tipHash_concat {prev : Hash} {entries : List EvidenceEntry} {e : EvidenceEntry} :
    tipHash prev (entries ++ [e]) = e.entryHash := by
  rw [tipHash, List.getLast?_concat]
  rfl

/-- A log that is not empty ends with a hash of one of its strings. -/
theorem tip_ne_zero (hS : Sound sha256 strings) {entries : List EvidenceEntry} {e : EvidenceEntry}
    (h : verifyChain sha256 session (entries ++ [e]) = .ok ())
    (hmem : entryString session e ∈ strings) : e.entryHash ≠ zeroHash := by
  intro hzero
  rw [verifyChain_concat] at h
  exact hS.nonzero _ hmem (h.2.hash.trans hzero)

theorem eq_of_tip (hS : Sound sha256 strings) {a b : List EvidenceEntry}
    (ha : verifyChain sha256 session a = .ok ()) (hb : verifyChain sha256 session b = .ok ())
    (hsa : a.map (entryString session) ⊆ strings) (hsb : b.map (entryString session) ⊆ strings)
    (htip : tipHash zeroHash a = tipHash zeroHash b) : a = b := by
  induction a using List.reverseRecOn generalizing b with
  | nil =>
    rcases List.eq_nil_or_concat' b with rfl | ⟨b, y, rfl⟩
    · rfl
    · rw [tipHash_concat, tipHash_nil] at htip
      exact absurd htip.symm (tip_ne_zero hS hb (hsb (by simp)))
  | append_singleton a x ih =>
    have hx : entryString session x ∈ strings := hsa (by simp)
    rcases List.eq_nil_or_concat' b with rfl | ⟨b, y, rfl⟩
    · rw [tipHash_concat, tipHash_nil] at htip
      exact absurd htip (tip_ne_zero hS ha hx)
    · have hy : entryString session y ∈ strings := hsb (by simp)
      rw [tipHash_concat, tipHash_concat] at htip
      rw [verifyChain_concat] at ha hb
      have hdigest : sha256 (entryString session x) = sha256 (entryString session y) :=
        ha.2.hash.trans (htip.trans hb.2.hash.symm)
      have hfields := (entryString_inj (hS.inj _ hx _ hy hdigest)).2
      have hinit : a = b := by
        apply ih ha.1 hb.1
        · exact fun s hs => hsa (by rw [List.map_append]; exact List.mem_append_left _ hs)
        · exact fun s hs => hsb (by rw [List.map_append]; exact List.mem_append_left _ hs)
        · rw [← ha.2.link, ← hb.2.link]
          exact hfields.1
      subst hinit
      have hpay : payload x = payload y := by
        rw [payload, payload, hfields.2.1, hfields.2.2.1, hfields.2.2.2]
      rw [fits_iff.mp ha.2, fits_iff.mp hb.2, hpay]

/-- Two verified logs with one last hash are equal, or two of their strings share
a digest, or one of them has the zero digest. -/
theorem last_binds {a b : List EvidenceEntry} (ha : verifyChain sha256 session a = .ok ())
    (hb : verifyChain sha256 session b = .ok ())
    (htip : tipHash zeroHash a = tipHash zeroHash b) :
    a = b ∨
      (∃ x ∈ (a ++ b).map (entryString session), ∃ y ∈ (a ++ b).map (entryString session),
        x ≠ y ∧ sha256 x = sha256 y) ∨
      ∃ x ∈ (a ++ b).map (entryString session), sha256 x = zeroHash := by
  by_contra hnot
  rw [not_or, not_or] at hnot
  rcases hnot with ⟨hne, hcoll, hzero⟩
  have hS : Sound sha256 ((a ++ b).map (entryString session)) := by
    constructor
    · intro x hx y hy he
      by_contra hxy
      exact hcoll ⟨x, hx, y, hy, hxy, he⟩
    · intro x hx he
      exact hzero ⟨x, hx, he⟩
  apply hne
  apply eq_of_tip hS ha hb
  · rw [List.map_append]
    exact List.subset_append_left _ _
  · rw [List.map_append]
    exact List.subset_append_right _ _
  · exact htip

end Heads

/-- `verify_chain` accepts the logs that appending builds and no others; an error
points at the first entry that does not extend what precedes it; and the last
hash of a log that is not empty binds the whole of it. -/
theorem accepts_built_chains (sha256 : List UInt8 → Hash) (session : Pubkey) :
    (∀ entries, verifyChain sha256 session entries = .ok () ↔
      entries = buildChain sha256 session (entries.map payload)) ∧
    (∀ (db : Database) (attempts : List Attempt), db.evidence session = [] →
      (∀ a ∈ attempts, a.claim.session = session) → attempts.length ≤ 2 ^ 63 →
      ∃ db', appendAll sha256 db attempts = .ok db' ∧
        loadEvidenceChain db' session =
          .ok (buildChain sha256 session (attempts.map Attempt.payload))) ∧
    (∀ entries error, verifyChain sha256 session entries = .error error →
      ∃ (k : ℕ) (hk : k < entries.length),
        ChainError.position error = Int64.ofNat k ∧
        entries.take k = buildChain sha256 session ((entries.take k).map payload) ∧
        entries.take k ++ [entries[k]] ≠
          extend sha256 session (entries.take k) (payload entries[k])) ∧
    ∀ a b, verifyChain sha256 session a = .ok () → verifyChain sha256 session b = .ok () →
      a ≠ [] → b ≠ [] →
      a.getLast?.map EvidenceEntry.entryHash = b.getLast?.map EvidenceEntry.entryHash →
      a = b ∨
        (∃ x ∈ (a ++ b).map (entryString session), ∃ y ∈ (a ++ b).map (entryString session),
          x ≠ y ∧ sha256 x = sha256 y) ∨
        ∃ x ∈ (a ++ b).map (entryString session), sha256 x = zeroHash := by
  refine ⟨verifyChain_iff_built, ?_, fun _ _ h => verifyChain_error h, ?_⟩
  · intro db attempts hnil hsession hlen
    exact appendAll_eq attempts hnil hsession hlen
  · intro a b ha hb _ _ hlast
    apply last_binds ha hb
    rw [tipHash, tipHash, hlast]

/-- A log of three entries is accepted; without the first it is refused at the
start. A refused claim above every column is recorded as the largest value. -/
theorem accepts_built_chains_ledger :
    Ledger.entries = buildChain Ledger.sha256 Ledger.session (Ledger.entries.map payload) ∧
    (∃ db', appendAll Ledger.sha256 Database.empty
        [⟨⟨Ledger.session, UInt64.ofNat (2 ^ 64 - 1), 1, 0⟩, .exceedsDeposit,
          Vector.replicate 64 0⟩] = .ok db' ∧
      loadEvidenceChain db' Ledger.session = .ok (buildChain Ledger.sha256 Ledger.session
        [⟨UInt64.ofNat (2 ^ 63 - 1), 1, Decision.exceedsDeposit.asStr⟩])) ∧
    (∃ (k : ℕ) (hk : k < (Ledger.entries.drop 1).length),
      ChainError.position (.sequenceGap 0 1) = Int64.ofNat k ∧
      (Ledger.entries.drop 1).take k = buildChain Ledger.sha256 Ledger.session
        (((Ledger.entries.drop 1).take k).map payload) ∧
      (Ledger.entries.drop 1).take k ++ [(Ledger.entries.drop 1)[k]] ≠
        extend Ledger.sha256 Ledger.session ((Ledger.entries.drop 1).take k)
          (payload (Ledger.entries.drop 1)[k])) ∧
    (Ledger.entries = Ledger.entries ∨
      (∃ x ∈ (Ledger.entries ++ Ledger.entries).map (entryString Ledger.session),
        ∃ y ∈ (Ledger.entries ++ Ledger.entries).map (entryString Ledger.session),
          x ≠ y ∧ Ledger.sha256 x = Ledger.sha256 y) ∨
      ∃ x ∈ (Ledger.entries ++ Ledger.entries).map (entryString Ledger.session),
        Ledger.sha256 x = zeroHash) := by
  have hchain : verifyChain Ledger.sha256 Ledger.session Ledger.entries = .ok () := by
    decide +kernel
  have hgap : verifyChain Ledger.sha256 Ledger.session (Ledger.entries.drop 1) =
      .error (.sequenceGap 0 1) := by
    decide +kernel
  have h := accepts_built_chains Ledger.sha256 Ledger.session
  refine ⟨(h.1 _).mp hchain, h.2.1 Database.empty _ rfl ?_ (by decide), h.2.2.1 _ _ hgap,
    h.2.2.2 _ _ hchain hchain (by decide) (by decide) rfl⟩
  intro a ha
  rw [List.mem_singleton] at ha
  rw [ha]

end AgentPay.EvidenceChains
