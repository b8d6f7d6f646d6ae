import AgentPay.AccountLayouts
import AgentPay.AdmissionMediation
import AgentPay.AffordablePurchases
import AgentPay.Allowlists
import AgentPay.ApprovalRuns
import AgentPay.AuditResponses
import AgentPay.Base58
import AgentPay.Base64
import AgentPay.BootConfiguration
import AgentPay.ByteBuffers
import AgentPay.CatalogueListings
import AgentPay.CataloguePrices
import AgentPay.CheckedIntegers
import AgentPay.ClaimEncoding
import AgentPay.ClaimHeader
import AgentPay.ClaimMessage
import AgentPay.ClientPurchases
import AgentPay.CollectableClaims
import AgentPay.CommittedPrefixes
import AgentPay.ControlPlane
import AgentPay.ControlRequests
import AgentPay.DecimalStrings
import AgentPay.EscrowBacking
import AgentPay.EscrowConservation
import AgentPay.EscrowEffects
import AgentPay.EscrowInvariant
import AgentPay.EscrowProgram
import AgentPay.EscrowRefunds
import AgentPay.EscrowState
import AgentPay.EventLogs
import AgentPay.EvidenceBinding
import AgentPay.EvidenceChains
import AgentPay.EvidenceLog
import AgentPay.EvidenceReplay
import AgentPay.EvidenceRuns
import AgentPay.EvidenceTables
import AgentPay.Fallible
import AgentPay.ForfeitedApprovals
import AgentPay.ForwardedAddresses
import AgentPay.GatewayClaims
import AgentPay.GrainBuckets
import AgentPay.Handlers
import AgentPay.IpAddresses
import AgentPay.KeyedTable
import AgentPay.LockOrders
import AgentPay.LoneRequests
import AgentPay.MerkleProofs
import AgentPay.MeteredRequests
import AgentPay.NumberedRows
import AgentPay.OpenProposals
import AgentPay.OperatorCredentials
import AgentPay.OperatorMinting
import AgentPay.PaidInFull
import AgentPay.PaidRequests
import AgentPay.PayoutAuthority
import AgentPay.PlannerAgreement
import AgentPay.PlanningClaims
import AgentPay.PolicyRules
import AgentPay.PolicyTransactions
import AgentPay.PoolErasures
import AgentPay.PositionalDigits
import AgentPay.ProvenDecisions
import AgentPay.PurchasePlans
import AgentPay.RateLimits
import AgentPay.ReconciledSessions
import AgentPay.RegistryMirror
import AgentPay.RepeatedPurchases
import AgentPay.RequestPool
import AgentPay.ResumedClients
import AgentPay.Runs
import AgentPay.SaturatingIntegers
import AgentPay.SessionBadges
import AgentPay.SessionEvents
import AgentPay.SessionLayouts
import AgentPay.SessionStore
import AgentPay.SettlementAgreement
import AgentPay.SettlementKeys
import AgentPay.SettlementReads
import AgentPay.SettlementReceipts
import AgentPay.SettlementRequests
import AgentPay.SettlementRetries
import AgentPay.SettlementSuccess
import AgentPay.SignatureReadings
import AgentPay.SolanaRuntime
import AgentPay.SpendingEnvelope
import AgentPay.StableSort
import AgentPay.StoreRefinement
import AgentPay.StoreRuns
import AgentPay.StoreStatements
import AgentPay.TenantReads
import AgentPay.TenantWrites
import AgentPay.TokenBuckets
import AgentPay.Trimming
import AgentPay.UndisturbedSessions
import AgentPay.UntrustedGateways
import AgentPay.UsdcAmounts
import AgentPay.VaultSolvency
import AgentPay.VerifierPage
import AgentPay.Workspaces
