import ProgrammaticSigner.Cli.Approval
import ProgrammaticSigner.Cli.BalanceChanges
import ProgrammaticSigner.Cli.Batch
import ProgrammaticSigner.Cli.Ceremony
import ProgrammaticSigner.Cli.Choices
import ProgrammaticSigner.Cli.Collected
import ProgrammaticSigner.Cli.Compiled
import ProgrammaticSigner.Cli.Decode
import ProgrammaticSigner.Cli.Embedded
import ProgrammaticSigner.Cli.ExecuteAccounts
import ProgrammaticSigner.Cli.Faithful
import ProgrammaticSigner.Cli.NonceAdvance
import ProgrammaticSigner.Cli.NonceRelay
import ProgrammaticSigner.Cli.NonceWithdraw
import ProgrammaticSigner.Cli.Participants
import ProgrammaticSigner.Cli.Reference
import ProgrammaticSigner.Cli.Relay
import ProgrammaticSigner.Cli.RelaySize
import ProgrammaticSigner.Cli.Roles
import ProgrammaticSigner.Cli.Sent
import ProgrammaticSigner.Cli.SentCompletion
import ProgrammaticSigner.Cli.Sign
import ProgrammaticSigner.Cli.Signed
import ProgrammaticSigner.Cli.Simulate
import ProgrammaticSigner.Cli.SimulationOutput
import ProgrammaticSigner.Cli.SizedReference
import ProgrammaticSigner.Cli.Slots
import ProgrammaticSigner.Cli.Smallest
import ProgrammaticSigner.Cli.Submit
import ProgrammaticSigner.Cli.Summary
import ProgrammaticSigner.Cli.TokenAmount
import ProgrammaticSigner.Cli.Toolkit
import ProgrammaticSigner.Cli.V1Transaction
import ProgrammaticSigner.Cli.WithdrawAgreement
import ProgrammaticSigner.Cli.WithdrawCompletion
import ProgrammaticSigner.Executor.Exact
import ProgrammaticSigner.Executor.Facts
import ProgrammaticSigner.Executor.Instruction
import ProgrammaticSigner.Executor.Program
import ProgrammaticSigner.Interface.Codecs
import ProgrammaticSigner.Js.Resolvers
import ProgrammaticSigner.Library.Decimal
import ProgrammaticSigner.Library.Delegation
import ProgrammaticSigner.Library.Handover
import ProgrammaticSigner.Library.Issued
import ProgrammaticSigner.Library.Listing
import ProgrammaticSigner.Library.OneWay
import ProgrammaticSigner.Library.Outcome
import ProgrammaticSigner.Library.Register
import ProgrammaticSigner.Library.Wire
import ProgrammaticSigner.Migrate.Approval
import ProgrammaticSigner.Migrate.Authorities
import ProgrammaticSigner.Migrate.AuthorityMoves
import ProgrammaticSigner.Migrate.AuthorityReference
import ProgrammaticSigner.Migrate.AuthorityRules
import ProgrammaticSigner.Migrate.Reference
import ProgrammaticSigner.Migrate.ReportLists
import ProgrammaticSigner.Migrate.ReportSuggestions
import ProgrammaticSigner.Migrate.Scan
import ProgrammaticSigner.Migrate.ScanLists
import ProgrammaticSigner.Migrate.ScanReport
import ProgrammaticSigner.Migrate.Suggestions
import ProgrammaticSigner.Migrate.TokenMigration
import ProgrammaticSigner.Migrate.TokenPlan
import ProgrammaticSigner.Migrate.TokenReference
import ProgrammaticSigner.Migrate.TokenRules
import ProgrammaticSigner.Migrate.Toolkit
import ProgrammaticSigner.Migrate.Transfers
import ProgrammaticSigner.Nonce.Change
import ProgrammaticSigner.Nonce.Client
import ProgrammaticSigner.Nonce.Custody
import ProgrammaticSigner.Nonce.Freshness
import ProgrammaticSigner.Nonce.Instruction
import ProgrammaticSigner.Nonce.Program
import ProgrammaticSigner.Nonce.Run
import ProgrammaticSigner.Nonce.State
import ProgrammaticSigner.Nonce.Steps
import ProgrammaticSigner.Nonce.Withdraw
import ProgrammaticSigner.Runtime.Approvals
import ProgrammaticSigner.Runtime.AtMostOnce
import ProgrammaticSigner.Runtime.Calls
import ProgrammaticSigner.Runtime.Completion
import ProgrammaticSigner.Runtime.Machine
import ProgrammaticSigner.Runtime.Register
import ProgrammaticSigner.Runtime.Relayed
import ProgrammaticSigner.Runtime.Standing
import ProgrammaticSigner.Signer.Authorization
import ProgrammaticSigner.Signer.Client
import ProgrammaticSigner.Signer.Complete
import ProgrammaticSigner.Signer.Exact
import ProgrammaticSigner.Signer.Facts
import ProgrammaticSigner.Signer.Instruction
import ProgrammaticSigner.Signer.Isolation
import ProgrammaticSigner.Signer.Layout
import ProgrammaticSigner.Signer.Program
import ProgrammaticSigner.Signer.SeedLimit
import ProgrammaticSigner.Signer.Signing
import ProgrammaticSigner.Signer.Submission
import ProgrammaticSigner.Solana.Ledger
import ProgrammaticSigner.Solana.Memory
import ProgrammaticSigner.Solana.Message
import ProgrammaticSigner.Solana.Platform
import ProgrammaticSigner.Solana.Reference
