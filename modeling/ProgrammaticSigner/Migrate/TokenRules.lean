import ProgrammaticSigner.Migrate.TokenPlan

set_option autoImplicit false

/- The rules that the token programs apply to the instructions of a token migration, and the
runs of such instructions, each from what the one before it left. -/
namespace ProgrammaticSigner

open Outcome

variable {P : Platform}

/-- The mints and the token accounts under a token program. -/
structure TokenLedger (P : Platform) where
  tokenProgram : P.Address
  mint : P.Address → Option P.Mint
  account : P.Address → Option P.TokenAccount

namespace TokenLedger

variable (ledger : TokenLedger P)

def setAccount (address : P.Address) (account : Option P.TokenAccount) : TokenLedger P :=
  { ledger with account := Function.update ledger.account address account }

@[simp] theorem setAccount_tokenProgram (address : P.Address) (account : Option P.TokenAccount) :
    (ledger.setAccount address account).tokenProgram = ledger.tokenProgram := rfl

@[simp] theorem setAccount_mint (address : P.Address) (account : Option P.TokenAccount) :
    (ledger.setAccount address account).mint = ledger.mint := rfl

@[simp] theorem setAccount_same (address : P.Address) (account : Option P.TokenAccount) :
    (ledger.setAccount address account).account address = account := Function.update_self _ _ _

theorem setAccount_other {address other : P.Address} (account : Option P.TokenAccount)
    (different : other ≠ address) :
    (ledger.setAccount address account).account other = ledger.account other :=
  Function.update_of_ne different _ _

/-- A client reads a ledger: whatever it unpacks is there, and where it finds no account of the
token program there is none. -/
structure ReadBy (K : MigrateToolkit P) (client : ChainClient P) : Prop where
  mint : ∀ address raw mint, client.optionalAccount address = .ok (some raw) →
    raw.owner = ledger.tokenProgram → K.unpackMint raw.data = .ok mint →
    ledger.mint address = some mint
  account : ∀ address account, ReadsToken K client address ledger.tokenProgram account →
    ledger.account address = some account
  absent : ∀ address found, client.optionalAccount address = .ok found →
    (∀ raw ∈ found, raw.owner ≠ ledger.tokenProgram) → ledger.account address = none

end TokenLedger

namespace TokenAccount

variable {Address : Type} [DecidableEq Address]

/-- A new associated token account. -/
def fresh (mint : Mint Address) (mintAddress wallet : Address) : TokenAccount Address where
  mint := mintAddress
  owner := wallet
  amount := 0
  delegate := none
  delegatedAmount := 0
  state := if mint.defaultAccountState = some AccountState.frozen.toByte then .frozen
    else .initialized
  closeAuthority := none
  cpiGuard := none
  transferFeeAmount := if mint.hasTransferFee then some 0 else none
  confidentialTransfer := none
  confidentialTransferFee := none
  memoTransfer := none

/-- An authority spends as the account's delegate, also if it is its owner. -/
def SpendsAllowance (account : TokenAccount Address) (mint : Mint Address) (authority : Address) :
    Prop :=
  mint.permanentDelegate ≠ some authority ∧ account.delegate = some authority

instance (account : TokenAccount Address) (mint : Mint Address) (authority : Address) :
    Decidable (account.SpendsAllowance mint authority) := by
  unfold SpendsAllowance
  infer_instance

/-- The source after a transfer. -/
def debited (account : TokenAccount Address) (mint : Mint Address) (authority : Address)
    (amount : UInt64) : TokenAccount Address :=
  if account.SpendsAllowance mint authority then
    { account with
      amount := account.amount - amount
      delegatedAmount := account.delegatedAmount - amount
      delegate := if account.delegatedAmount = amount then none else account.delegate }
  else { account with amount := account.amount - amount }

/-- The destination after a transfer, which withholds the fee. -/
def credited (account : TokenAccount Address) (amount fee : UInt64) : TokenAccount Address :=
  { account with
    amount := account.amount + (amount - fee)
    transferFeeAmount := account.transferFeeAmount.map (· + fee) }

/-- An account whose withheld fees are in the mint. -/
def harvested (account : TokenAccount Address) : TokenAccount Address :=
  { account with transferFeeAmount := account.transferFeeAmount.map fun _ => 0 }

/-- What an account holds, with the fees that it withholds. -/
def held (account : TokenAccount Address) : Nat :=
  account.amount.toNat + (account.transferFeeAmount.getD 0).toNat

end TokenAccount

/-- What the programs of a migration's instructions read besides token accounts and mints. -/
structure TokenEnvironment (P : Platform) where
  /-- `TransferFeeConfig::calculate_epoch_fee` of a mint. -/
  epochFee : P.Address → UInt64 → UInt64
  /-- A payer can have the associated token account of a wallet and a mint created. -/
  canCreate : P.Address → P.Address → P.Address → Bool
  /-- The memo programs that a transfer knows. -/
  isMemo : P.Address → Bool
  /-- Multisig accounts of the mint's token program. -/
  isMultisig : P.Address → Bool
  incinerator : P.Address

/-- The programs that run a migration's instructions, below an executor. -/
structure TokenRuntime (P : Platform) extends TokenEnvironment P where
  /-- Runs an instruction after another one, if there is one, of some program. -/
  invoke : Option P.Address → TokenLedger P → P.Instruction →
    Except ProgramError (TokenLedger P)

namespace TokenEnvironment

variable (environment : TokenEnvironment P)

/-- What a transfer withholds. -/
def fee (address : P.Address) (mint : P.Mint) (amount : UInt64) : UInt64 :=
  if mint.hasTransferFee then environment.epochFee address amount else 0

/-- The documented rules of `TransferChecked` between two accounts, called by the executor and
without further accounts or signers. -/
structure TransferRules (previous : Option P.Address) (address : P.Address) (mint : P.Mint)
    (origin target : P.TokenAccount) (authority : P.Address) (amount : UInt64)
    (decimals : UInt8) : Prop where
  originMint : origin.mint = address
  targetMint : target.mint = address
  decimals : mint.decimals = decimals
  originThawed : origin.isFrozen = false
  targetThawed : target.isFrozen = false
  enough : amount ≤ origin.amount
  transferable : mint.nonTransferable = false
  unpaused : mint.paused = false
  unhooked : mint.transferHook = none
  unguarded : origin.cpiGuard ≠ some true
  /-- The permanent delegate is asked first, then the delegate, and the owner last. -/
  authorized : mint.permanentDelegate = some authority ∨
    (if origin.SpendsAllowance mint authority then amount ≤ origin.delegatedAmount
      else origin.owner = authority)
  /-- A multisig counts its own signers, and none are given. -/
  single : environment.isMultisig authority = false
  memo : target.memoTransfer = some true → ∃ program ∈ previous, environment.isMemo program = true
  credits : ∀ confidential ∈ target.confidentialTransfer,
    confidential.allowNonConfidentialCredits = true
  fits : target.amount.toNat + (amount - environment.fee address mint amount).toNat < 2 ^ 64
  withholds : 0 < environment.fee address mint amount → ∃ withheld ∈ target.transferFeeAmount,
    withheld.toNat + (environment.fee address mint amount).toNat < 2 ^ 64

/-- The documented rules of `CloseAccount`, called by the executor, for an account that holds
no tokens. What belongs to nobody can only be burned. -/
structure CloseRules (address : P.Address) (account : P.TokenAccount)
    (recipient authority : P.Address) : Prop where
  different : recipient ≠ address
  burned : account.owner = default ∨ account.owner = environment.incinerator →
    recipient = environment.incinerator
  authorized : account.owner ≠ default ∧ account.owner ≠ environment.incinerator →
    account.closeAuthority.getD account.owner = authority ∧
      environment.isMultisig authority = false ∧
      (account.cpiGuard = some true → recipient = account.owner)
  confidential : ∀ confidential ∈ account.confidentialTransfer, confidential.closable = true
  confidentialFee : ∀ closable ∈ account.confidentialTransferFee, closable = true
  fees : ∀ withheld ∈ account.transferFeeAmount, withheld = 0

end TokenEnvironment

namespace TokenRuntime

variable (runtime : TokenRuntime P)

/-- Documented behavior of the token programs, the Associated Token Account Program and the
Memo Program, where everyone who must sign does. -/
structure Laws (K : MigrateToolkit P) : Prop where
  fee_le : ∀ address amount, runtime.epochFee address amount ≤ amount
  create : ∀ previous (ledger : TokenLedger P) payer wallet address mint next,
    ledger.mint address = some mint →
    ledger.account (K.getAssociatedTokenAddress wallet address ledger.tokenProgram) = none →
    (runtime.invoke previous ledger
        (K.createAssociatedTokenAccountIdempotent payer wallet address ledger.tokenProgram) =
        .ok next ↔
      runtime.canCreate payer wallet address = true ∧
        next = ledger.setAccount
          (K.getAssociatedTokenAddress wallet address ledger.tokenProgram)
          (some (.fresh mint address wallet)))
  transfer : ∀ previous (ledger : TokenLedger P) source address destination authority amount
    decimals instruction mint origin target next,
    K.transferChecked ledger.tokenProgram source address destination authority [] amount
      decimals = .ok instruction →
    source ≠ destination → ledger.mint address = some mint →
    ledger.account source = some origin → ledger.account destination = some target →
    (runtime.invoke previous ledger instruction = .ok next ↔
      runtime.TransferRules previous address mint origin target authority amount decimals ∧
        next = (ledger.setAccount source (some (origin.debited mint authority amount))).setAccount
          destination (some (target.credited amount (runtime.fee address mint amount))))
  harvest : ∀ previous (ledger : TokenLedger P) source address instruction mint origin next,
    K.harvestWithheldTokensToMint ledger.tokenProgram address [source] = .ok instruction →
    ledger.mint address = some mint → ledger.account source = some origin →
    origin.mint = address →
    (runtime.invoke previous ledger instruction = .ok next ↔
      mint.hasTransferFee = true ∧ next = ledger.setAccount source (some origin.harvested))
  close : ∀ previous (ledger : TokenLedger P) address recipient authority instruction account next,
    K.closeAccount ledger.tokenProgram address recipient authority [] = .ok instruction →
    ledger.account address = some account → account.amount = 0 →
    (runtime.invoke previous ledger instruction = .ok next ↔
      runtime.CloseRules address account recipient authority ∧
        next = ledger.setAccount address none)
  memo : ∀ previous (ledger : TokenLedger P) text signers next,
    runtime.invoke previous ledger (K.buildMemo K.memoProgram (asciiBytes text) signers) =
      .ok next ↔ next = ledger

/-- Runs instructions in order. The first one that fails ends the run. -/
def runAll : Option P.Address → TokenLedger P → List P.Instruction →
    Except ProgramError (TokenLedger P)
  | _, ledger, [] => .ok ledger
  | previous, ledger, instruction :: rest => do
      let next ← runtime.invoke previous ledger instruction
      runAll (some instruction.programId) next rest

/-- The program of the last of some instructions, or of what was before them. -/
def lastProgram (previous : Option P.Address) (instructions : List P.Instruction) :
    Option P.Address :=
  instructions.foldl (fun _ instruction => some instruction.programId) previous

/-- A run of two parts is a run of the second one from what the first one left. -/
theorem runAll_append {previous : Option P.Address} {ledger final : TokenLedger P}
    {first second : List P.Instruction} :
    runtime.runAll previous ledger (first ++ second) = .ok final ↔
      ∃ middle, runtime.runAll previous ledger first = .ok middle ∧
        runtime.runAll (lastProgram previous first) middle second = .ok final := by
  induction first generalizing previous ledger with
  | nil => simp [runAll, lastProgram]
  | cons instruction rest ih =>
      simp only [List.cons_append, runAll, bind_ok_iff, ih, lastProgram, List.foldl_cons]
      constructor
      · intro ran
        obtain ⟨next, here, middle, before, after⟩ := ran
        exact ⟨middle, ⟨next, here, before⟩, after⟩
      · intro ran
        obtain ⟨middle, ⟨next, here, before⟩, after⟩ := ran
        exact ⟨next, here, middle, before, after⟩

/-- A part that is only there in some cases runs as its one operation in those, and changes
nothing in the others. -/
theorem runAll_part {K : MigrateToolkit P} {condition : Prop} [Decidable condition]
    {operation : TokenOperation P.Address} {built : List P.Instruction}
    (builds : List.Forall₂ (fun operation instruction => operation.build K = .ok instruction)
      (if condition then [operation] else []) built)
    {previous : Option P.Address} {ledger next middle : TokenLedger P} {allowed : Prop}
    (rules : condition → ∀ instruction, operation.build K = .ok instruction →
      (runtime.invoke previous ledger instruction = .ok middle ↔ allowed ∧ middle = next)) :
    runtime.runAll previous ledger built = .ok middle ↔
      (condition → allowed) ∧ middle = if condition then next else ledger := by
  by_cases holds : condition
  · rw [if_pos holds, List.forall₂_cons_left_iff] at builds
    obtain ⟨instruction, rest, carries, none, rfl⟩ := builds
    obtain rfl := List.forall₂_nil_left_iff.mp none
    simp only [runAll, bind_ok_iff, Except.ok.injEq, exists_eq_right, rules holds _ carries,
      holds, forall_const, if_true]
  · rw [if_neg holds, List.forall₂_nil_left_iff] at builds
    subst builds
    simp only [runAll, Except.ok.injEq, holds, false_implies, true_and, if_false]
    exact eq_comm

end TokenRuntime

end ProgrammaticSigner
