import ProgrammaticSigner.Cli.Summary
import ProgrammaticSigner.Cli.V1Transaction

set_option autoImplicit false

/- `transaction sign`: the roles of the signers, and the authorization message that the
authorities sign. -/
namespace ProgrammaticSigner

open Outcome

variable {P : Platform}

structure SignCommand (P : Platform) where
  executionMessage : Text
  nonceAccount : P.Address
  nonceAuthority : P.Address
  nonceHash : P.Hash
  authority : List P.Address
  requiredRelaySigner : List P.Address
  stripTransactionConfig : Bool
  signer : List P.SignerSource
  yes : Bool
  /-- The argument parser requires one. -/
  authority_required : authority ≠ []

/-- What a signing run settles before it loads a key. -/
structure SignPlan (P : Platform) where
  executionMessage : P.Message
  authorities : List P.Address
  requiredRelaySigners : List P.Address
  forwardedSigners : List P.Address
  authorizationMessage : P.Message

structure SignOutput where
  authorizationMessage : Text
  authorizationMessageHash : Text
  executionMessageHash : Text
  consumedNonce : Text
  nextNonce : Text
  forwardedSigners : List Text
  requiredRelaySigners : List Text
  signatures : List (Text × Text)
  deriving DecidableEq

namespace Sign

/-- `Vec::dedup`, which drops repetitions next to each other. -/
def dedup : List P.Address → List P.Address
  | first :: second :: rest =>
      if first = second then dedup (second :: rest) else first :: dedup (second :: rest)
  | short => short

/-- The addresses in the order that participants agree on. -/
def sortDedup (addresses : List P.Address) : List P.Address :=
  dedup (addresses.insertionSort (· ≤ ·))

/-- A `BTreeSet` of the addresses, in order. -/
def sortedSet (addresses : List P.Address) : List P.Address :=
  addresses.dedup.insertionSort (· ≤ ·)

def derivedSigners (authorities : List P.Address) : List P.Address :=
  sortedSet (authorities.map (deriveAddress P.signerProgram))

/-- Signers the executor uses directly, which sign at submission. -/
def forwardedSigners (executionMessage : P.Message) (nonceAuthority : P.Address)
    (authorities : List P.Address) : List P.Address :=
  sortedSet ((executionMessage.signerKeys ++ [nonceAuthority]).filter
    fun address => address ∉ derivedSigners authorities)

/-- Everyone with a signature slot on the authorization message. -/
def authorizationSigners (authorities forwarded requiredRelay : List P.Address) :
    List P.Address :=
  sortedSet (authorities ++ forwarded ++ requiredRelay)

variable (K : Toolkit P)

/-- The PDA of an authority must be a signer that the executor uses. -/
def checkAuthority (executionMessage : P.Message) (nonceAuthority authority : P.Address) :
    Except Failure Unit :=
  let pda := deriveAddress P.signerProgram authority
  ensure (pda = nonceAuthority ∨ pda ∈ executionMessage.signerKeys)
    [s!"Authority {K.display authority}'s derived signer {K.display pda} is neither the nonce " ++
      "authority nor a signer on the execution message"]

/-- Only those who do not otherwise need to sign can be required at the relay. -/
def checkRequiredRelaySigner (executionMessage : P.Message) (nonceAuthority : P.Address)
    (authorities : List P.Address) (signer : P.Address) : Except Failure Unit := do
  ensure (signer ∉ authorities)
    [s!"{K.display signer} is both an --authority and a --required-relay-signer"]
  ensure (signer ≠ nonceAuthority ∧ signer ∉ executionMessage.signerKeys)
    [s!"Required relay signer {K.display signer} is the nonce authority or a signer on the " ++
      "execution message, so it already signs"]
  let pda := deriveAddress P.signerProgram signer
  ensure (pda ≠ nonceAuthority ∧ pda ∉ executionMessage.signerKeys)
    [s!"Required relay signer {K.display signer}'s derived signer {K.display pda} is the nonce " ++
      "authority or a signer on the execution message, so its signature would promote it; pass " ++
      "it with --authority instead"]

def describeAuthorization : AuthorizationMessageError P.Address → String
  | .compile reason => s!"failed to compile executor instruction: {K.describeCompile reason}"
  | .invalid reason => K.describeMessage reason

/-- The part of the run up to a built authorization message. -/
def authorize (command : SignCommand P) : Except Failure (SignPlan P) := do
  let read ← Decode.readExecutionMessage K command.executionMessage
    command.stripTransactionConfig
  let executionMessage := { read with lifetimeSpecifier := command.nonceHash }
  let authorities := sortDedup command.authority
  let requiredRelaySigners := sortDedup command.requiredRelaySigner
  let instruction := ExecutorClient.execute command.nonceAccount command.nonceAuthority
    executionMessage
  let forwarded := forwardedSigners executionMessage command.nonceAuthority authorities
  let signers := authorizationSigners authorities forwarded requiredRelaySigners
  let count := signers.length
  ensure (count ≤ maxSignatures)
    [s!"too many required signers for the authorization message: {count} exceeds the v1 limit " ++
      s!"of {maxSignatures}"]
  forM authorities (checkAuthority K executionMessage command.nonceAuthority)
  forM requiredRelaySigners
    (checkRequiredRelaySigner K executionMessage command.nonceAuthority authorities)
  let authorizationMessage ← context "invalid authorization message"
    ((SignerClient.authorizationMessage instruction signers).mapError
      fun reason => [describeAuthorization K reason])
  return ⟨executionMessage, authorities, requiredRelaySigners, forwarded, authorizationMessage⟩

/-- Check that the smallest relay transaction that can submit the message fits. -/
def ensureRelayTransactionFits (authorizationMessage : P.Message)
    (authorities forwarded : List P.Address) : Except Failure Unit := do
  let signers := authorizationMessage.signerKeys
  let signatures := signers.map fun address =>
    if address ∈ authorities ∨ address ∉ forwarded then some default else none
  let feePayer := forwarded.head?.getD (signers.headD default)
  let transaction ← V1Transaction.relayTransaction K authorizationMessage signatures forwarded
    feePayer none default
  V1Transaction.ensureTransactionSize K
    "the smallest relay transaction for this authorization message" transaction

/-- Everything that is settled before keys are loaded. -/
def plan (command : SignCommand P) : Except Failure (SignPlan P) := do
  let plan ← authorize K command
  ensureRelayTransactionFits K plan.authorizationMessage plan.authorities plan.forwardedSigners
  return plan

/-- Add a signer unless its address is already present. -/
def addSigner (signers : List (P.Address × P.LocalSigner)) (address : P.Address)
    (signer : P.LocalSigner) : List (P.Address × P.LocalSigner) :=
  if signers.any fun entry => entry.1 == address then signers else signers ++ [(address, signer)]

/-- One loaded signer for each address. All of them must be authorities. -/
def uniqueSigners (authorities : List P.Address) :
    List P.LocalSigner → List (P.Address × P.LocalSigner) →
      Except Failure (List (P.Address × P.LocalSigner))
  | [], unique => .ok unique
  | signer :: rest, unique => do
      let address ← signer.tryPubkey
      ensure (address ∈ authorities)
        [s!"Signer {K.display address} is not in the supplied --authority list"]
      uniqueSigners authorities rest (addSigner unique address signer)

/-- The texts of the command, with the signatures of the local authorities. -/
def render (command : SignCommand P) (plan : SignPlan P)
    (signatures : List (P.Address × P.Signature)) : SignOutput where
  authorizationMessage := K.encodeBase64 (Platform.serializeV1 plan.authorizationMessage)
  authorizationMessageHash :=
    K.showHash (K.hashRawMessage (Platform.serializeV1 plan.authorizationMessage))
  executionMessageHash :=
    K.showHash (K.hashRawMessage (Platform.serializeV1 plan.executionMessage))
  consumedNonce := K.showHash command.nonceHash
  nextNonce := K.showHash (nextNonce command.nonceAccount plan.executionMessage)
  forwardedSigners := plan.forwardedSigners.map K.showAddress
  requiredRelaySigners := plan.requiredRelaySigners.map K.showAddress
  signatures := signatures.map fun entry => (K.showAddress entry.1, K.showSignature entry.2)

def run (command : SignCommand P) (client : Client P) : Except Failure SignOutput := do
  let plan ← plan K command
  let signers ← command.signer.mapM fun source =>
    client.loadSigner source "message authority" false
  let unique ← uniqueSigners K plan.authorities signers []
  Summary.confirmSigning client unique command.yes
  let signatures ← Summary.signAuthorizationMessage K plan.authorizationMessage unique
  return render K command plan signatures

theorem mem_addSigner {signers : List (P.Address × P.LocalSigner)} {address : P.Address}
    {signer : P.LocalSigner} {entry : P.Address × P.LocalSigner}
    (member : entry ∈ addSigner signers address signer) :
    entry ∈ signers ∨ entry = (address, signer) := by
  unfold addSigner at member
  split at member
  · exact .inl member
  · rcases List.mem_append.mp member with kept | added
    · exact .inl kept
    · exact .inr (List.mem_singleton.mp added)

/-- Nobody is dropped, and the added address is there. -/
theorem addSigner_covers (signers : List (P.Address × P.LocalSigner)) (address : P.Address)
    (signer : P.LocalSigner) :
    signers ⊆ addSigner signers address signer ∧
      ∃ entry ∈ addSigner signers address signer, entry.1 = address := by
  unfold addSigner
  split
  · rename_i present
    obtain ⟨entry, listed, same⟩ := List.any_eq_true.mp present
    exact ⟨List.Subset.refl _, entry, listed, eq_of_beq same⟩
  · exact ⟨List.subset_append_left _ _, _, List.mem_append_right _ (List.mem_singleton_self _), rfl⟩

theorem mem_dedup (addresses : List P.Address) (address : P.Address) :
    address ∈ dedup addresses ↔ address ∈ addresses := by
  fun_induction dedup addresses with
  | case1 second rest ih =>
      rw [ih]
      simp
  | case2 first second rest other ih =>
      rw [List.mem_cons, List.mem_cons, ih]
  | case3 short _ => exact Iff.rfl

@[simp] theorem mem_sortDedup {addresses : List P.Address} {address : P.Address} :
    address ∈ sortDedup addresses ↔ address ∈ addresses := by
  rw [sortDedup, mem_dedup, List.mem_insertionSort]

@[simp] theorem mem_sortedSet {addresses : List P.Address} {address : P.Address} :
    address ∈ sortedSet addresses ↔ address ∈ addresses := by
  rw [sortedSet, List.mem_insertionSort, List.mem_dedup]

end Sign

/-- What holds of a signing run that built its authorization message. -/
structure Planned (command : SignCommand P) (plan : SignPlan P) : Prop where
  valid : P.validate plan.executionMessage = .ok ()
  config : plan.executionMessage.config = default
  lifetime : plan.executionMessage.lifetimeSpecifier = command.nonceHash
  authorities : ∀ address, address ∈ plan.authorities ↔ address ∈ command.authority
  requiredRelay : ∀ address,
    address ∈ plan.requiredRelaySigners ↔ address ∈ command.requiredRelaySigner
  forwarded : ∀ address, address ∈ plan.forwardedSigners ↔
    UsesSigner plan.executionMessage command.nonceAuthority address ∧
      address ∉ command.authority.map (deriveAddress P.signerProgram)
  derived : ∀ authority ∈ command.authority, UsesSigner plan.executionMessage
    command.nonceAuthority (deriveAddress P.signerProgram authority)
  separate : ∀ signer ∈ command.requiredRelaySigner, signer ∉ command.authority ∧
    ¬ UsesSigner plan.executionMessage command.nonceAuthority signer ∧
    ¬ UsesSigner plan.executionMessage command.nonceAuthority
      (deriveAddress P.signerProgram signer)
  authorizes : Authorizes (ExecutorClient.execute command.nonceAccount command.nonceAuthority
      plan.executionMessage)
    (Sign.authorizationSigners plan.authorities plan.forwardedSigners plan.requiredRelaySigners)
    plan.authorizationMessage

namespace Sign

variable {K : Toolkit P}

theorem mem_forwardedSigners {executionMessage : P.Message} {nonceAuthority address : P.Address}
    {authorities : List P.Address} :
    address ∈ forwardedSigners executionMessage nonceAuthority authorities ↔
      UsesSigner executionMessage nonceAuthority address ∧
        address ∉ authorities.map (deriveAddress P.signerProgram) := by
  simp only [forwardedSigners, derivedSigners, mem_sortedSet, List.mem_filter, List.mem_append,
    List.mem_singleton, decide_eq_true_eq, UsesSigner, or_comm]

theorem checkAuthority_ok_iff {executionMessage : P.Message} {nonceAuthority authority : P.Address}
    {value : Unit} :
    checkAuthority K executionMessage nonceAuthority authority = .ok value ↔
      UsesSigner executionMessage nonceAuthority (deriveAddress P.signerProgram authority) := by
  rw [checkAuthority, ensure_ok_iff]
  rfl

theorem checkRequiredRelaySigner_ok_iff {executionMessage : P.Message}
    {nonceAuthority signer : P.Address} {authorities : List P.Address} {value : Unit} :
    checkRequiredRelaySigner K executionMessage nonceAuthority authorities signer = .ok value ↔
      signer ∉ authorities ∧ ¬ UsesSigner executionMessage nonceAuthority signer ∧
        ¬ UsesSigner executionMessage nonceAuthority
          (deriveAddress P.signerProgram signer) := by
  simp only [checkRequiredRelaySigner, bind_ok_iff, ensure_ok_iff, exists_const, UsesSigner,
    not_or, ne_eq]

theorem authorize_planned (messages : P.MessageLaws) {command : SignCommand P}
    {plan : SignPlan P} (planned : authorize K command = .ok plan) : Planned command plan := by
  simp only [authorize, bind_ok_iff, ensure_ok_iff, forM_ok_iff, context_ok_iff, mapError_ok_iff,
    pure_ok_iff, exists_const, checkAuthority_ok_iff, checkRequiredRelaySigner_ok_iff] at planned
  obtain ⟨read, found, few, derived, separate, authorizationMessage, built, same⟩ := planned
  obtain ⟨valid, config⟩ := Decode.readExecutionMessage_ok K messages found
  have reset := messages.resets read command.nonceHash valid
  rw [← config] at reset
  subst same
  refine ⟨reset, config, rfl, fun _ => mem_sortDedup, fun _ => mem_sortDedup, ?_, ?_, ?_,
    authorizationMessage_authorizes messages built⟩
  · intro address
    show address ∈ forwardedSigners _ _ (sortDedup command.authority) ↔ _
    rw [mem_forwardedSigners]
    simp only [List.mem_map, mem_sortDedup]
  · intro authority listed
    exact derived authority (mem_sortDedup.mpr listed)
  · intro signer listed
    have checked := separate signer (mem_sortDedup.mpr listed)
    rw [mem_sortDedup] at checked
    exact checked

/-- The run signs the message it read, on the nonce it was given. -/
theorem authorize_read {command : SignCommand P} {plan : SignPlan P}
    (built : authorize K command = .ok plan) :
    ∃ read, Decode.readExecutionMessage K command.executionMessage
        command.stripTransactionConfig = .ok read ∧
      plan.executionMessage = { read with lifetimeSpecifier := command.nonceHash } := by
  simp only [authorize, bind_ok_iff, pure_ok_iff] at built
  obtain ⟨read, found, _, _, _, _, _, _, _, _, same⟩ := built
  exact ⟨read, found, same ▸ rfl⟩

end Sign

section Facts

variable {command : SignCommand P} {plan : SignPlan P} (planned : Planned command plan)
include planned

/-- The message's required signers are the three lists of the command line together. -/
theorem Planned.mem_signerKeys (address : P.Address) :
    address ∈ plan.authorizationMessage.signerKeys ↔ address ∈ command.authority ∨
      address ∈ plan.forwardedSigners ∨ address ∈ command.requiredRelaySigner := by
  rw [planned.authorizes.signers, Sign.authorizationSigners, Sign.mem_sortedSet,
    List.mem_append, List.mem_append, planned.authorities, planned.requiredRelay, or_assoc]

/-- A signer the executor uses is promoted by an authority, or forwarded. -/
theorem Planned.promoted_or_forwarded {address : P.Address}
    (used : UsesSigner plan.executionMessage command.nonceAuthority address) :
    address ∈ command.authority.map (deriveAddress P.signerProgram) ∨
      address ∈ plan.forwardedSigners := by
  by_cases promoted : address ∈ command.authority.map (deriveAddress P.signerProgram)
  · exact .inl promoted
  · exact .inr ((planned.forwarded address).mpr ⟨used, promoted⟩)

end Facts

end ProgrammaticSigner
