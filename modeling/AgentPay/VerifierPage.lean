import AgentPay.CommittedPrefixes

/-!
# What the verifier page shows

`verifier/page.tsx` asks for the settlement of a session when its evidence is loaded, and for a
proof when a decision is picked. The answers arrive late and in any order, an answer may fail,
and the page keeps the last one of each kind, while the gateway and the chain go on. So a
verdict compares a proof served at one moment with the chain read at another, or with nothing.

The page drops no answer it has asked for another session, so what is said here is about a page
that stays on one. The settlement endpoint is taken to read the ledger at one moment and through
the gateway's own program, and every answer of it that does not come in time to have failed.
-/
namespace AgentPay.VerifierPage
open SolanaRuntime EscrowState GatewayClaims EvidenceLog EvidenceBinding SessionStore
open StoreRuns EvidenceRuns MerkleProofs SettlementRequests SettlementAgreement AuditResponses
open CommittedPrefixes ClaimHeader RequestPool Fallible Runs

/-! ### The page and the answers on their way -/

/-- What the settlement endpoint reports of a ledger. -/
def reported (rt : Runtime) (L : EscrowLedger) (key : Pubkey) : OnChain :=
  match committedRoot rt L key with
  | some root => ⟨true, some (hex32 root)⟩
  | none => ⟨false, none⟩

/-- The states of the page that the verdict is computed from. The list of evidence it also loads
is shown beside the verdict and does not enter it. -/
structure Page where
  onChain : Option OnChain
  proof : Option EvidenceProofResponse

inductive Answer where
  | settlement (onChain : OnChain)
  | proof (res : Option EvidenceProofResponse)

/-- The gateway and the chain, the page, and the answers that have not arrived yet. -/
structure Viewing (cfg : Config) where
  desk : Desk cfg
  page : Page
  answers : List Answer

inductive ViewLabel (cfg : Config) where
  | desk (l : DeskLabel cfg)
  | loadEvidence
  | onChainSettlement (session : Pubkey)
  | verify (session : Pubkey) (sequenceId : Int64)
  | arrive

def opened {cfg : Config} (g : Desk cfg) : Viewing cfg := ⟨g, ⟨none, none⟩, []⟩

/-- The gateway and the chain were so at some moment of the run, or are so at its end. -/
def Seen {cfg : Config} (h : History (Viewing cfg) (ViewLabel cfg)) (v : Viewing cfg) (s : Shared) :
    Prop :=
  s = v.desk.shared ∨ ∃ t ∈ h, t.before.desk.shared = s

/-- The proof of an entry of the log as it was then. -/
def ServedAt (cfg : Config) (key : Pubkey) (s : Shared) (res : EvidenceProofResponse) : Prop :=
  ∃ (i : ℕ) (h : i < ((s.db.evidence key).map EvidenceRow.entry).length),
    Proves cfg.rt.sha256 (merkleRoot cfg.rt.sha256 (loadEvidenceLeaves s.db key)) i
      ((s.db.evidence key).map EvidenceRow.entry).length
      ((s.db.evidence key).map EvidenceRow.entry)[i] res

/-- The page holds this answer, or it is on its way. -/
def Held {cfg : Config} (v : Viewing cfg) : Answer → Prop
  | .settlement onChain => v.page.onChain = some onChain ∨ .settlement onChain ∈ v.answers
  | .proof res => v.page.proof = res ∨ .proof res ∈ v.answers

/-- What an answer says was so at some moment of the run. -/
def Drawn {cfg : Config} (key : Pubkey) (h : History (Viewing cfg) (ViewLabel cfg))
    (v : Viewing cfg) : Answer → Prop
  | .settlement onChain => ∃ s, Seen h v s ∧ onChain = reported cfg.rt s.ledger key
  | .proof res => ∀ r, res = some r → ∃ s, Seen h v s ∧ ServedAt cfg key s r

/-- The log of every earlier moment is where the log begins now, and what the chain held then
was a root of it. -/
structure Traced (cfg : Config) (key : Pubkey) (h : History (Viewing cfg) (ViewLabel cfg))
    (v : Viewing cfg) : Prop where
  covered : Covered cfg key v.desk
  covers : ∀ s, Seen h v s → CoversPrefix cfg key s
  grown : ∀ s, Seen h v s →
    loadEvidenceLeaves s.db key <+: loadEvidenceLeaves v.desk.shared.db key
  drawn : ∀ a, Held v a → Drawn key h v a

section Steps
variable {cfg : Config} {p : Parsers} {key : Pubkey} {v v' : Viewing cfg} {l : ViewLabel cfg}
variable {h : History (Viewing cfg) (ViewLabel cfg)} {s : Shared} {a : Answer}

theorem Seen.later (hs : Seen h v s) (l : ViewLabel cfg) (v' : Viewing cfg) :
    Seen (⟨v, l, v'⟩ :: h) v' s := by
  rcases hs with rfl | ⟨t, ht, rfl⟩
  · exact .inr ⟨⟨v, l, v'⟩, List.mem_cons_self, rfl⟩
  · exact .inr ⟨t, List.mem_cons_of_mem _ ht, rfl⟩

theorem seen_step (hs : Seen (⟨v, l, v'⟩ :: h) v' s) : s = v'.desk.shared ∨ Seen h v s := by
  rcases hs with hs | ⟨t, ht, rfl⟩
  · exact .inl hs
  · rcases List.mem_cons.mp ht with rfl | ht
    · exact .inr (.inl rfl)
    · exact .inr (.inr ⟨t, ht, rfl⟩)

theorem Drawn.later (hd : Drawn key h v a) (l : ViewLabel cfg) (v' : Viewing cfg) :
    Drawn key (⟨v, l, v'⟩ :: h) v' a := by
  cases a with
  | settlement onChain =>
    obtain ⟨s, hs, he⟩ := hd
    exact ⟨s, hs.later l v', he⟩
  | proof res =>
    intro r hr
    obtain ⟨s, hs, he⟩ := hd r hr
    exact ⟨s, hs.later l v', he⟩

/-- Where only the page moves, what it holds was held or is drawn now. -/
theorem Traced.page (ht : Traced cfg key h v) (hdesk : v'.desk = v.desk)
    (hheld : ∀ a, Held v' a → Held v a ∨ Drawn key (⟨v, l, v'⟩ :: h) v' a) :
    Traced cfg key (⟨v, l, v'⟩ :: h) v' := by
  have hseen : ∀ s, Seen (⟨v, l, v'⟩ :: h) v' s → Seen h v s := by
    intro s hs
    rcases seen_step hs with rfl | hs
    · rw [hdesk]
      exact .inl rfl
    · exact hs
  refine ⟨?_, fun s hs => ht.covers s (hseen s hs), fun s hs => ?_, fun a ha => ?_⟩
  · rw [hdesk]
    exact ht.covered
  · rw [hdesk]
    exact ht.grown s (hseen s hs)
  · rcases hheld a ha with ha | ha
    · exact (ht.drawn a ha).later l v'
    · exact ha

end Steps

/-! ### The verdict -/

/-- The three verdicts, on the log as it was when the proof was served and the chain as it was
when it was read. -/
structure Judged (cfg : Config) (key : Pubkey) (served read : Shared) (v : Verdict) : Prop where
  valid : v.valid = true
  anchored : v.anchored = true ↔
    committedRoot cfg.rt read.ledger key =
      some (merkleRoot cfg.rt.sha256 (loadEvidenceLeaves served.db key))
  disagrees : v.chainDisagrees = true → ∃ root n, committedRoot cfg.rt read.ledger key = some root ∧
    PrefixRoot cfg key read root n ∧ n ≠ (loadEvidenceLeaves served.db key).length
  pending : v.anchored = false → v.chainDisagrees = false →
    committedRoot cfg.rt read.ledger key = none

/-! ### A decision after the settlement -/
namespace Reader
open PlainParsers (parsers standard)

/-- A step of the gateway or the chain, before the page is opened. -/
def unseen (t : Transition (Desk Office.config) (DeskLabel Office.config)) :
    Transition (Viewing Office.config) (ViewLabel Office.config) :=
  ⟨opened t.before, .desk t.label, opened t.after⟩

/-- The gateway and the chain once the first entry is settled and a second one recorded. -/
def desk : Desk Office.config := Office.repeated.2

def settlement : OnChain := reported Office.config.rt desk.shared.ledger Office.session

def served : Option EvidenceProofResponse :=
  (evidenceProof Office.config.rt.sha256 parsers (some desk.shared.db)
    ⟨Base58.encode Office.session.toList, 1⟩).toOption

/-- Both answers are on their way, and the proof comes first. -/
def asked : Viewing Office.config := ⟨desk, ⟨none, none⟩, [.proof served, .settlement settlement]⟩

def proved : Viewing Office.config := ⟨desk, ⟨none, served⟩, [.settlement settlement]⟩

def compared : Viewing Office.config := ⟨desk, ⟨some settlement, served⟩, []⟩

def history : History (Viewing Office.config) (ViewLabel Office.config) :=
  ⟨proved, .arrive, compared⟩ :: ⟨asked, .arrive, proved⟩ ::
    ⟨⟨desk, ⟨none, none⟩, [.settlement settlement]⟩, .verify Office.session 1, asked⟩ ::
    ⟨opened desk, .onChainSettlement Office.session,
      ⟨desk, ⟨none, none⟩, [.settlement settlement]⟩⟩ ::
    ⟨opened desk, .loadEvidence, opened desk⟩ :: Office.repeated.1.map unseen

end Reader

end AgentPay.VerifierPage
