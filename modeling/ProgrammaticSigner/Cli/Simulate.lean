import ProgrammaticSigner.Cli.Approval

set_option autoImplicit false

/- `transaction simulate`: the relay path of an execution before anyone has signed it, with
every signer the executor uses as a signer of the transaction. -/
namespace ProgrammaticSigner

open Outcome

variable {P : Platform}

structure SimulateCommand (P : Platform) where
  executionMessage : Text
  nonceAccount : P.Address
  nonceAuthority : Option P.Address
  nonceHash : Option P.Hash
  stripTransactionConfig : Bool

/-- The transaction that the node is asked to simulate, and what went into it. -/
structure Simulation (P : Platform) where
  executionMessage : P.Message
  nonceAuthority : P.Address
  relaySigners : List P.Address
  authorizationMessage : P.Message
  submit : P.Instruction
  transaction : P.Transaction

namespace Simulate

/-- Mark the leading accounts as signers. -/
def markLeading (count : Nat) (instruction : P.Instruction) : P.Instruction :=
  { instruction with
    accounts := instruction.accounts.mapIdx fun index account =>
      if index < count then { account with isSigner := true } else account }

variable (K : Toolkit P)

/-- The run up to the node's simulation, whose output is left out. -/
def build (command : SimulateCommand P) (client : Client P) : Except Failure (Simulation P) := do
  let nonce ← client.nonceAccount command.nonceAccount
  let nonceAuthority := command.nonceAuthority.getD nonce.authority
  let nonceHash := command.nonceHash.getD nonce.nonce
  let read ← Decode.readExecutionMessage K command.executionMessage
    command.stripTransactionConfig
  let executionMessage := { read with lifetimeSpecifier := nonceHash }
  ensure (nonceHash = nonce.nonce)
    [s!"expected nonce value {K.displayHash nonceHash}, but nonce account " ++
      s!"{K.display command.nonceAccount} currently has {K.displayHash nonce.nonce}"]
  ensure (nonceAuthority = nonce.authority)
    [s!"expected nonce authority {K.display nonceAuthority}, but nonce account " ++
      s!"{K.display command.nonceAccount} has authority {K.display nonce.authority}"]
  let source ← client.feePayerSource
  let signer ← client.loadSigner source "fee payer" false
  let feePayer ← signer.tryPubkey
  let instruction := ExecutorClient.execute command.nonceAccount nonceAuthority executionMessage
  let relaySigners := Sign.sortedSet
    ((instruction.accounts.filter fun account => account.isSigner).map AccountMeta.pubkey)
  let count := relaySigners.length
  ensure (count ≤ maxSignatures)
    [s!"too many execution signers to simulate: {count} exceeds the v1 limit of {maxSignatures}"]
  let authorizationMessage ← context "invalid authorization message"
    ((SignerClient.authorizationMessage instruction relaySigners).mapError
      fun reason => [Sign.describeAuthorization K reason])
  -- The message's required signers lead its keys, which the accounts mirror.
  let submit := markLeading count
    (SignerClient.submit (List.replicate count none) authorizationMessage)
  let message ← V1Transaction.compileMessage K feePayer [submit] default
  let transaction := V1Transaction.unsigned message
  V1Transaction.ensureTransactionSize K "simulated transaction" transaction
  return ⟨executionMessage, nonceAuthority, relaySigners, authorizationMessage, submit,
    transaction⟩

end Simulate

/-- What holds of a simulation that was built. -/
structure Simulated (K : Toolkit P) (command : SimulateCommand P) (simulation : Simulation P) :
    Prop where
  valid : P.validate simulation.executionMessage = .ok ()
  config : simulation.executionMessage.config = default
  relaySigners : ∀ address, address ∈ simulation.relaySigners ↔
    UsesSigner simulation.executionMessage simulation.nonceAuthority address
  authorizes : Authorizes (ExecutorClient.execute command.nonceAccount simulation.nonceAuthority
      simulation.executionMessage)
    simulation.relaySigners simulation.authorizationMessage
  submit : simulation.submit = Simulate.markLeading simulation.relaySigners.length
    (SignerClient.submit (List.replicate simulation.relaySigners.length none)
      simulation.authorizationMessage)
  compiled : V1Transaction.CompiledFrom K simulation.transaction.message simulation.submit

namespace Simulate

variable {K : Toolkit P} {command : SimulateCommand P} {client : Client P}
  {simulation : Simulation P}

theorem build_simulated (messages : P.MessageLaws)
    (built : build K command client = .ok simulation) : Simulated K command simulation := by
  simp only [build, bind_ok_iff, ensure_ok_iff, context_ok_iff, mapError_ok_iff,
    V1Transaction.compileMessage_ok_iff, pure_ok_iff] at built
  obtain ⟨nonce, -, read, found, -, -, -, -, source, -, signer, -, feePayer, -, -, -,
    authorizationMessage, authorizes, message, ⟨compiled, -⟩, -, -, same⟩ := built
  obtain ⟨valid, config⟩ := Decode.readExecutionMessage_ok K messages found
  have reset := messages.resets read (command.nonceHash.getD nonce.nonce) valid
  rw [← config] at reset
  have formed := messages.wellFormed _ reset
  subst same
  refine ⟨reset, config, fun address => ?_, authorizationMessage_authorizes messages authorizes,
    rfl, feePayer, [], default, compiled⟩
  rw [Sign.mem_sortedSet, List.mem_map,
    ← ExecutorClient.execute_signer_iff messages formed]
  simp only [List.mem_filter]
  constructor
  · rintro ⟨account, ⟨listed, signs⟩, same⟩
    exact ⟨account, listed, same, signs⟩
  · rintro ⟨account, listed, same, signs⟩
    exact ⟨account, ⟨listed, signs⟩, same⟩

/-- The simulation is on the live value and authority of the nonce account. -/
theorem build_nonce (built : build K command client = .ok simulation) :
    ∃ nonce read, client.nonceAccount command.nonceAccount = .ok nonce ∧
      Decode.readExecutionMessage K command.executionMessage
        command.stripTransactionConfig = .ok read ∧
      simulation.nonceAuthority = nonce.authority ∧
      simulation.executionMessage = { read with lifetimeSpecifier := nonce.nonce } := by
  simp only [build, bind_ok_iff, ensure_ok_iff, pure_ok_iff] at built
  obtain ⟨nonce, live, read, found, -, hash, -, authority, _, _, _, _, _, _, _, _, _, _, _, _, _, _,
    same⟩ := built
  subst same
  exact ⟨nonce, read, live, found, authority, by rw [hash]⟩

end Simulate

section Simulated

variable {K : Toolkit P} {command : SimulateCommand P} {simulation : Simulation P}
  (simulated : Simulated K command simulation) {accounts : List P.AccountView}
  (granted : GrantedFor simulation.submit accounts)
include simulated granted

/-- The relay account of each required signer is one of the leading, marked ones. -/
theorem Simulated.signs (messages : P.MessageLaws) {index : Nat} {signer : P.Address}
    {account : P.AccountView}
    (slot : simulation.authorizationMessage.signerKeys[index]? = some signer)
    (present : accounts[index]? = some account) : account.isSigner = true := by
  have formed := messages.wellFormed _ simulated.authorizes.valid
  obtain ⟨below, -⟩ := List.getElem?_eq_some_iff.mp slot
  rw [formed.signerKeys_length] at below
  have room := formed.signers_le
  have key : simulation.authorizationMessage.accountKeys[index]? =
      some simulation.authorizationMessage.accountKeys[index] := List.getElem?_eq_getElem (by omega)
  have marked : simulation.submit.accounts[index]? =
      some ⟨simulation.authorizationMessage.accountKeys[index], true,
        P.isMaybeWritable simulation.authorizationMessage index⟩ := by
    rw [simulated.submit]
    simp only [Simulate.markLeading, SignerClient.submit, List.getElem?_mapIdx, key,
      Option.map_some]
    rw [if_pos (simulated.authorizes.count ▸ below)]
  exact granted.signers index account _ present marked rfl

/-- With no signature at all, every required signer approves through its relay account. -/
theorem Simulated.approved (messages : P.MessageLaws) :
    Approved accounts (List.replicate simulation.relaySigners.length none)
      simulation.authorizationMessage := by
  refine ⟨?_, ?_, ?_⟩
  · have addresses := granted.addresses
    rw [simulated.submit] at addresses
    refine addresses.trans (Eq.trans ?_ (SignerClient.submit_addresses (List.replicate
      simulation.relaySigners.length none) simulation.authorizationMessage))
    refine List.ext_getElem (by simp [Simulate.markLeading]) fun index _ _ => ?_
    simp only [Simulate.markLeading, List.getElem_map, List.getElem_mapIdx]
    split <;> rfl
  · rw [List.length_replicate, simulated.authorizes.count]
  · intro index signer signature account slot given present
    obtain rfl := List.eq_of_mem_replicate (List.mem_of_getElem? given)
    exact simulated.signs granted messages slot present

theorem Simulated.provided (messages : P.MessageLaws) {address : P.Address}
    (used : UsesSigner simulation.executionMessage simulation.nonceAuthority address) :
    RelaySigned accounts simulation.authorizationMessage address := by
  have required := (simulated.authorizes.signers address).mpr
    ((simulated.relaySigners address).mpr used)
  exact ⟨required, fun _ _ slot present => simulated.signs granted messages slot present⟩

end Simulated

end ProgrammaticSigner
