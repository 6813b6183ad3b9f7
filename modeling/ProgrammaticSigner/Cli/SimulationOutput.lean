import ProgrammaticSigner.Cli.TokenAmount
import ProgrammaticSigner.Library.Listing
import ProgrammaticSigner.Signer.Instruction

set_option autoImplicit false

/- What `transaction simulate` and `submit --dry-run` make of the node's answer, and how it
is printed. A failed `unwrap` is an outcome of its own. -/
namespace ProgrammaticSigner

open Outcome

variable {P : Platform}

/-- How code stops early: with an error, or in a panic. -/
inductive Stop where
  | failed (failure : Failure)
  | panicked
  deriving DecidableEq

/-- `Option::unwrap` -/
def unwrap {α : Type} (found : Option α) : Except Stop α := okOr found .panicked

/-- `u64::try_from` -/
def tryFromU64 (value : Nat) : Option UInt64 :=
  if value ≤ maxU64 then some (UInt64.ofNat value) else none

/-- Arithmetic of `i128`, which stops at its ends. -/
def saturate (value : Int) : Int := max (-2 ^ 127) (min value (2 ^ 127 - 1))

def saturatingAdd (left right : Int) : Int := saturate (left + right)

def saturatingSub (left right : Int) : Int := saturate (left - right)

theorem saturate_eq {value : Int} (lower : -2 ^ 127 ≤ value) (upper : value < 2 ^ 127) :
    saturate value = value := by
  simp only [saturate]
  omega

/-- The part of `UiTokenAmount` that is read. -/
structure UiTokenAmount where
  amount : Text
  decimals : UInt8
  deriving DecidableEq

/-- `UiTransactionTokenBalance` -/
structure TokenBalance where
  accountIndex : UInt8
  mint : String
  owner : Option String
  programId : Option String
  uiTokenAmount : UiTokenAmount
  deriving DecidableEq

/-- `RpcSimulateTransactionResult` -/
structure SimulationResult where
  err : Option String
  logs : Option (List String)
  unitsConsumed : Option UInt64
  fee : Option UInt64
  preBalances : Option (List UInt64)
  postBalances : Option (List UInt64)
  preTokenBalances : Option (List TokenBalance)
  postTokenBalances : Option (List TokenBalance)

structure SolBalanceChange where
  address : String
  lamports : Int
  authority : Option String
  deriving DecidableEq

structure TokenBalanceChange where
  account : String
  mint : String
  owner : Option String
  programId : Option String
  amount : Int
  decimals : UInt8
  authority : Option String
  deriving DecidableEq

structure SimulateOutput where
  unitsConsumed : Option UInt64
  fee : Option UInt64
  solBalanceChanges : List SolBalanceChange
  tokenBalanceChanges : List TokenBalanceChange
  deriving DecidableEq

namespace SimulationOutput

/-- PDA signers by their text, with the authorities they were derived from. -/
abbrev Labels := Std.TreeMap String String

variable (K : Toolkit P)

def labels (authorities : List P.Address) : Labels :=
  .ofList (authorities.map fun authority =>
    (K.display (deriveAddress P.signerProgram authority), K.display authority))

/-- The entry of one account among the changes, unless nothing changed. -/
def solBalanceChange (fee : UInt64) (authorities : Labels)
    (entry : (P.Address × UInt64 × UInt64) × Nat) : Option SolBalanceChange :=
  let fee : Int := if entry.2 = 0 then fee.toNat else 0
  let pre : Int := entry.1.2.1.toNat
  let post : Int := entry.1.2.2.toNat
  let change := saturatingAdd (saturatingSub post pre) fee
  if change ≠ 0 then
    let address := K.display entry.1.1
    some ⟨address, change, authorities[address]?⟩
  else none

def solBalanceChanges (message : P.Message) (result : SimulationResult) (fee : UInt64)
    (authorities : Labels) : Except Stop (List SolBalanceChange) := do
  let missing := Stop.failed ["the RPC node did not return simulated balances"]
  let pre ← okOr result.preBalances missing
  let post ← okOr result.postBalances missing
  ensure (pre.length = message.accountKeys.length ∧ post.length = message.accountKeys.length)
    (.failed ["the RPC node returned balances that do not match the simulated accounts"])
  return (message.accountKeys.zip (pre.zip post)).zipIdx.filterMap
    (solBalanceChange K fee authorities)

/-- A token account's balances before and after. -/
abbrev Sides := Option TokenBalance × Option TokenBalance

def setPre (found : Option Sides) (balance : TokenBalance) : Sides :=
  (some balance, (found.getD (none, none)).2)

def setPost (found : Option Sides) (balance : TokenBalance) : Sides :=
  ((found.getD (none, none)).1, some balance)

def tokenBalances (pre post : List TokenBalance) : Std.TreeMap UInt8 Sides :=
  Listing.merge TokenBalance.accountIndex setPost
    (Listing.merge TokenBalance.accountIndex setPre ∅ pre) post

def tokenAmount (balance : Option TokenBalance) : Except Stop Int :=
  match balance with
  | none => .ok 0
  | some balance => do
      let amount ← (context "the RPC node returned an invalid token amount"
        (parseU64 balance.uiTokenAmount.amount)).mapError Stop.failed
      return amount.toNat

def tokenBalanceChange (message : P.Message) (authorities : Labels) (entry : UInt8 × Sides) :
    Except Stop (Option TokenBalanceChange) := do
  let post ← tokenAmount entry.2.2
  let pre ← tokenAmount entry.2.1
  let change := saturatingSub post pre
  if change = 0 then return none
  else
    let balance ← unwrap (entry.2.2.or entry.2.1)
    let account ← okOr message.accountKeys[entry.1.toNat]?
      (.failed ["the RPC node returned a token balance for an unknown account"])
    return some ⟨K.display account, balance.mint, balance.owner, balance.programId, change,
      balance.uiTokenAmount.decimals, balance.owner.bind fun owner => authorities[owner]?⟩

def tokenBalanceChanges (message : P.Message) (result : SimulationResult) (authorities : Labels) :
    Except Stop (List TokenBalanceChange) := do
  let missing := Stop.failed ["the RPC node did not return simulated token balances"]
  let pre ← okOr result.preTokenBalances missing
  let post ← okOr result.postTokenBalances missing
  (tokenBalances pre post).toList.filterMapM (tokenBalanceChange K message authorities)

/-- `simulation_output` -/
def build (message : P.Message) (result : SimulationResult) (authorities : List P.Address)
    (relay : Bool) : Except Stop SimulateOutput := do
  let logs := "\n".intercalate (result.logs.getD [])
  ensure (result.err = none)
    (.failed [s!"simulation failed: {result.err.getD default}" ++ "\nLogs:\n" ++ logs])
  let fee := result.fee.getD 0
  let authorities := labels K authorities
  let sol ← solBalanceChanges K message result (if relay then 0 else fee) authorities
  let token ← tokenBalanceChanges K message result authorities
  return ⟨result.unitsConsumed, if relay then some fee else none, sol, token⟩

end SimulationOutput

/-- `Sol` as it is printed. -/
def showSol (lamports : UInt64) : String :=
  s!"◎{lamports.toNat / 10 ^ 9}." ++
    String.ofList ((Nat.toDigits 10 (lamports.toNat % 10 ^ 9)).leftpad 9 '0')

def showSign (amount : Int) : String := if amount < 0 then "-" else "+"

def showLabel (authority : Option String) : String :=
  authority.elim "" fun authority => s!"  (PDA of {authority})"

def formatTokenAmount (amount : Int) (decimals : UInt8) : Except Stop String := do
  let magnitude ← unwrap (tryFromU64 amount.natAbs)
  return showSign amount ++ String.ofList (realNumberStringTrimmed magnitude decimals)

def SolBalanceChange.display (change : SolBalanceChange) : Except Stop String := do
  let lamports ← unwrap (tryFromU64 change.lamports.natAbs)
  return s!"{change.address}  {showSign change.lamports}{showSol lamports}" ++
    showLabel change.authority

def TokenBalanceChange.display (change : TokenBalanceChange) : Except Stop String := do
  let amount ← formatTokenAmount change.amount change.decimals
  return s!"{change.account}  {amount}  mint {change.mint}" ++
    (change.owner.elim "" fun owner => s!"  owner {owner}") ++ showLabel change.authority

def SimulateOutput.header (output : SimulateOutput) : String :=
  match output.unitsConsumed, output.fee with
  | some units, some _ => s!"Simulation succeeded ({units.toNat} compute units)"
  | some units, none => s!"Simulation succeeded ({units.toNat} compute units, " ++
      "excluding authority signature verification)"
  | none, _ => "Simulation succeeded"

def SimulateOutput.display (output : SimulateOutput) : Except Stop String := do
  let sol ← output.solBalanceChanges.mapM SolBalanceChange.display
  let token ← output.tokenBalanceChanges.mapM TokenBalanceChange.display
  return output.header ++ "\n" ++
    (output.fee.elim "" fun fee => s!"Fee: {showSol fee}" ++ "\n") ++
    "\nSOL balance changes:\n" ++ (if sol = [] then "  none\n" else "") ++
    String.join (sol.map fun line => s!"  {line}" ++ "\n") ++
    "\nToken balance changes:" ++ (if token = [] then "\n  none" else "") ++
    String.join (token.map fun line => "\n  " ++ line)

inductive OutputFormat where
  | display
  | json
  | jsonCompact
  deriving DecidableEq

/-- `OutputFormat::render`, with the JSON encoder, which is told whether to be pretty. -/
def SimulateOutput.render (toJson : Bool → SimulateOutput → Except Failure String)
    (format : OutputFormat) (output : SimulateOutput) : Except Stop String :=
  match format with
  | .display => output.display
  | .json => (context "failed to encode JSON" (toJson true output)).mapError .failed
  | .jsonCompact => (context "failed to encode JSON" (toJson false output)).mapError .failed

end ProgrammaticSigner
