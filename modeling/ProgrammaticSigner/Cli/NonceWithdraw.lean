import ProgrammaticSigner.Cli.Sign
import ProgrammaticSigner.Cli.SimulationOutput
import ProgrammaticSigner.Nonce.Client
import ProgrammaticSigner.Nonce.Withdraw

set_option autoImplicit false

/- `nonce withdraw`: which `Withdraw` it builds from the account it read, who signs it, and
what it reports. -/
namespace ProgrammaticSigner

open Outcome

variable {P : Platform}

/-- A client that can also read accounts, rent and the configured keypair. -/
structure AccountClient (P : Platform) extends Client P where
  configKeypairSource : Except Failure (SignerSource P.Address)
  optionalAccount : P.Address → Except Failure (Option P.Account)
  minimumBalanceForRentExemption : Nat → Except Failure UInt64

inductive Amount where
  | all
  | lamports (lamports : UInt64)
  deriving DecidableEq

structure WithdrawCommand (P : Platform) where
  nonceAccount : P.Address
  destination : P.Address
  amount : Amount
  nonceAuthority : Option P.SignerSource

/-- The nonce authority's signer. An address cannot sign. -/
structure NonceAuthority (P : Platform) where
  signer : P.LocalSigner
  address : P.Address
  canSign : Bool

structure NonceWithdrawOutput where
  signature : Text
  nonceAccount : Text
  destination : Text
  lamports : UInt64
  nonce : Option Text
  deriving DecidableEq

structure NonceWithdrawAuthorizationOutput where
  nonceAccount : Text
  currentNonce : Text
  nextNonce : Option Text
  destination : Text
  lamports : UInt64
  signer : Text
  authorizationMessage : Text
  deriving DecidableEq

inductive NonceWithdrawResult where
  | sent (output : NonceWithdrawOutput)
  | authorization (output : NonceWithdrawAuthorizationOutput)
  deriving DecidableEq

/-- The amount that is reported. -/
def NonceWithdrawResult.lamports : NonceWithdrawResult → UInt64
  | sent output => output.lamports
  | authorization output => output.lamports

/-- The account is reported closed. -/
def NonceWithdrawResult.closed : NonceWithdrawResult → Bool
  | sent output => output.nonce.isNone
  | authorization output => output.nextNonce.isNone

/-- Who the built `Withdraw` is signed by: the key of an account that is not an initialized
nonce, the stored authority, or the PDA that the authority is promoted to. -/
inductive WithdrawRoute (P : Platform) where
  | recover
  | direct (previous : P.Nonce)
  | promoted (previous : P.Nonce) (pda : P.Address)

structure WithdrawPlan (P : Platform) where
  lamports : UInt64
  closes : Bool
  route : WithdrawRoute P
  withdraw : P.Instruction

namespace NonceWithdraw

variable (K : Toolkit P)

/-- `NonceAuthority::load` -/
def loadAuthority (client : AccountClient P) (source : Option P.SignerSource) :
    Except Failure (NonceAuthority P) := do
  let source ← match source with
    | some source => .ok source
    | none => client.configKeypairSource
  let signer ← client.loadSigner source "nonce authority" true
  let address ← context "failed to read nonce authority pubkey" signer.tryPubkey
  return ⟨signer, address, match source with
    | .pubkey _ => false
    | .other _ => true⟩

def ensureCanSign (authority : NonceAuthority P) : Except Failure Unit :=
  ensure (authority.canSign = true)
    [s!"nonce authority {K.display authority.address} signs the relay transaction directly, so " ++
      "it must be passed as a signer. Only a PDA nonce authority's authority can be given as an " ++
      "address"]

def nonceProgramAccount (client : AccountClient P) (address : P.Address) :
    Except Failure P.Account := do
  let found ← client.optionalAccount address
  let account ← okOr found [s!"nonce account {K.display address} was not found"]
  ensure (account.owner = P.nonceProgram)
    [s!"account {K.display address} is owned by {K.display account.owner}, not the SPL Nonce " ++
      s!"program {K.display P.nonceProgram}"]
  return account

/-- The fee payer, and the signer unless they are the same. -/
def relaySigners (feePayer : P.LocalSigner) (feePayerAddress : P.Address)
    (signer : Option P.LocalSigner) : Except Failure (List P.LocalSigner) :=
  match signer with
  | none => .ok [feePayer]
  | some signer => do
      let address ← signer.tryPubkey
      return if address ≠ feePayerAddress then [feePayer, signer] else [feePayer]

/-- `send_relay_transaction` -/
def sendRelayTransaction (client : AccountClient P) (instruction : P.Instruction)
    (signer : Option P.LocalSigner) : Except Failure Text := do
  let source ← client.feePayerSource
  let feePayer ← client.loadSigner source "fee payer" false
  let feePayerAddress ← context "failed to read fee payer pubkey" feePayer.tryPubkey
  let signers ← relaySigners feePayer feePayerAddress signer
  let blockhash ← client.latestBlockhash
  let message ← V1Transaction.compileMessage K feePayerAddress [instruction] blockhash
  let transaction ← context "failed to sign relay transaction"
    (V1Transaction.tryPartialSign K (V1Transaction.unsigned message)
      (Platform.serializeV1 message) signers)
  -- A validated message has a fee payer, so there is a first signature.
  let signature := String.ofList (K.showSignature (transaction.signatures.headD default))
  context s!"relay transaction {signature}"
    (client.sendAndConfirmTransaction transaction)

/-- The amount asked for, of what the account holds. -/
def requestedLamports (amount : Amount) (account : P.Account) : UInt64 :=
  match amount with
  | .all => account.lamports
  | .lamports lamports => lamports

/-- An account that is not an initialized nonce can only be closed, by its own key. -/
def planRecovery (command : WithdrawCommand P) (authority : NonceAuthority P)
    (lamports remaining : UInt64) : Except Failure (WithdrawPlan P) := do
  ensure (authority.address = command.nonceAccount)
    [s!"nonce account {K.display command.nonceAccount} is not initialized, so only its own " ++
      "keypair can withdraw from it. Pass the nonce account keypair as --nonce-authority"]
  ensure (remaining = 0)
    [s!"nonce account {K.display command.nonceAccount} is not initialized, so it can only be " ++
      "closed. Withdraw ALL"]
  ensureCanSign K authority
  return ⟨lamports, true, .recover, NonceClient.withdraw command.nonceAccount command.nonceAccount
    command.destination lamports⟩

/-- What stays behind must be rent exempt. -/
def checkRent (client : AccountClient P) (command : WithdrawCommand P)
    (lamports remaining : UInt64) : Except Failure Unit :=
  if remaining = 0 then .ok ()
  else do
    let rentExemptMinimum ← client.minimumBalanceForRentExemption Nonce.len
    ensure (rentExemptMinimum ≤ remaining)
      [s!"withdrawing {showSol lamports} would leave nonce account " ++
        s!"{K.display command.nonceAccount} with {showSol remaining}, below its rent-exempt " ++
        s!"minimum of {showSol rentExemptMinimum}. Withdraw ALL to close it"]

/-- The stored authority withdraws directly, and a PDA through its authority. -/
def planInitialized (client : AccountClient P) (command : WithdrawCommand P)
    (authority : NonceAuthority P) (previous : P.Nonce) (lamports remaining : UInt64) :
    Except Failure (WithdrawPlan P) := do
  checkRent K client command lamports remaining
  let pda := deriveAddress P.signerProgram authority.address
  let closes := decide (remaining = 0)
  if previous.authority = authority.address then
    ensureCanSign K authority
    return ⟨lamports, closes, .direct previous, NonceClient.withdraw authority.address
      command.nonceAccount command.destination lamports⟩
  else if previous.authority = pda then
    return ⟨lamports, closes, .promoted previous pda, NonceClient.withdraw pda
      command.nonceAccount command.destination lamports⟩
  else
    throw [s!"nonce account {K.display command.nonceAccount} has authority " ++
      s!"{K.display previous.authority}, but the nonce authority given is " ++
      s!"{K.display authority.address} and its derived signer is {K.display pda}"]

/-- The run up to the `Withdraw` it builds. -/
def plan (command : WithdrawCommand P) (client : AccountClient P) (authority : NonceAuthority P) :
    Except Failure (WithdrawPlan P) := do
  ensure (command.destination ≠ command.nonceAccount)
    [s!"destination must differ from nonce account {K.display command.nonceAccount}"]
  let account ← nonceProgramAccount K client command.nonceAccount
  let lamports := requestedLamports command.amount account
  ensure (0 < lamports) ["withdrawal amount must be greater than zero"]
  let remaining ← okOr (checkedSub account.lamports lamports)
    [s!"nonce account {K.display command.nonceAccount} has {showSol account.lamports}, less " ++
      s!"than the {showSol lamports} to withdraw"]
  match Nonce.view account.data with
  | .error _ => planRecovery K command authority lamports remaining
  | .ok previous => planInitialized K client command authority previous lamports remaining

def sentOutput (command : WithdrawCommand P) (plan : WithdrawPlan P) (signature : Text)
    (nonce : P.Hash) : NonceWithdrawResult :=
  .sent ⟨signature, K.showAddress command.nonceAccount, K.showAddress command.destination,
    plan.lamports, if plan.closes then none else some (K.showHash nonce)⟩

/-- The authorization message that promotes the PDA, and the nonce after its execution. -/
def authorizePromotion (command : WithdrawCommand P) (authority : NonceAuthority P)
    (plan : WithdrawPlan P) (previous : P.Nonce) (pda : P.Address) :
    Except Failure (P.Message × P.Hash) := do
  let executionMessage ← context "failed to compile execution message"
    ((K.tryCompileWithConfig pda [plan.withdraw] previous.nonce default).mapError
      fun reason => [K.describeCompile reason])
  context "invalid execution message"
    ((P.validate executionMessage).mapError fun reason => [K.describeMessage reason])
  let execute := ExecutorClient.execute command.nonceAccount pda executionMessage
  let authorizationMessage ← context "invalid authorization message"
    ((SignerClient.authorizationMessage execute [authority.address]).mapError
      fun reason => [Sign.describeAuthorization K reason])
  return (authorizationMessage, nextNonce command.nonceAccount executionMessage)

/-- The rest of the run: sign and send what was built, or print what is to be signed. -/
def complete (command : WithdrawCommand P) (client : AccountClient P)
    (authority : NonceAuthority P) (plan : WithdrawPlan P) :
    Except Failure NonceWithdrawResult :=
  match plan.route with
  | .recover => do
      let signature ← sendRelayTransaction K client plan.withdraw (some authority.signer)
      return sentOutput K command plan signature default
  | .direct previous => do
      let signature ← sendRelayTransaction K client plan.withdraw (some authority.signer)
      return sentOutput K command plan signature previous.nonce
  | .promoted previous pda => do
      let authorized ← authorizePromotion K command authority plan previous pda
      let authorizationMessage := authorized.1
      let next := authorized.2
      let bytes := Platform.serializeV1 authorizationMessage
      if authority.canSign = false then
        return .authorization ⟨K.showAddress command.nonceAccount, K.showHash previous.nonce,
          if plan.closes then none else some (K.showHash next),
          K.showAddress command.destination, plan.lamports, K.showAddress authority.address,
          K.encodeBase64 bytes⟩
      else
        let signature ← context
          s!"failed to sign authorization message with {K.display authority.address}"
          (authority.signer.trySignMessage bytes)
        let submit := SignerClient.submit [some signature] authorizationMessage
        let signature ← sendRelayTransaction K client submit none
        return sentOutput K command plan signature next

def run (command : WithdrawCommand P) (client : AccountClient P) :
    Except Failure NonceWithdrawResult := do
  let authority ← loadAuthority client command.nonceAuthority
  let plan ← plan K command client authority
  complete K command client authority plan

end NonceWithdraw

end ProgrammaticSigner
